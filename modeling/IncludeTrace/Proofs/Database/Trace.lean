import IncludeTrace.Proofs.Database.Flags
import IncludeTrace.Proofs.Database.Wrappers
import IncludeTrace.Proofs.Session.Result

/-!
# Traces with a database

The trace of a file with a database switches its flag on, runs its compiler once and puts the flag back.
So what it needs for its merge comes from one run of the database with the flag on, `Database.reporting`
(`Workshop.supplies_iff`). What it leaves is the world after that run and a database with other flags at
most, and nothing but that run can interrupt it (`Workshop.ended_leaves`). All other flags do not matter
to the run (`Database.Alike.run`), so earlier traces do not matter to later ones but for the compiler
runs that they used up.
-/

namespace IncludeTrace

namespace Outcome

variable {ε ε' α : Type} {f : ε → ε'} {o : Outcome ε α} {a : α} {r : Except ε α}

@[simp]
theorem mapFailure_eq_value : o.mapFailure f = .value a ↔ o = .value a := by
  cases o <;> simp [mapFailure]

@[simp]
theorem mapFailure_eq_interrupted : o.mapFailure f = .interrupted ↔ o = .interrupted := by
  cases o <;> simp [mapFailure]

@[simp]
theorem ofExcept_eq_value : ofExcept r = .value a ↔ r = .ok a := by
  cases r <;> simp [ofExcept]

@[simp]
theorem ofExcept_ne_interrupted : ofExcept r ≠ .interrupted := by
  cases r <;> simp [ofExcept]

end Outcome

namespace Database

variable {db db' : Database} {cwd path : Text} {w : World}

/-- The database with the reporting of includes switched on for a file. -/
def reporting (db : Database) (cwd path : Text) : Database :=
  { db with flags := db.flags.put (Path.key cwd path) true }

/-- Databases that are **alike** differ in their flags at most. -/
def Alike (db db' : Database) : Prop := ∃ flags, db' = { db with flags := flags }

namespace Alike

theorem refl (db : Database) : db.Alike db := ⟨db.flags, rfl⟩

theorem trans {db'' : Database} (h : db.Alike db') (h' : db'.Alike db'') : db.Alike db'' := by
  obtain ⟨flags, rfl⟩ := h
  obtain ⟨flags', rfl⟩ := h'
  exact ⟨flags', rfl⟩

theorem find (h : db.Alike db') (cwd path : Text) : db'.find cwd path = db.find cwd path := by
  obtain ⟨flags, rfl⟩ := h
  rfl

theorem directories (h : db.Alike db') (cwd path : Text) :
    (db'.reporting cwd path).directories cwd path = (db.reporting cwd path).directories cwd path := by
  obtain ⟨flags, rfl⟩ := h
  rfl

/-- While the flag of a file is on, a run does not depend on any other flag. -/
theorem run (h : db.Alike db') (w : World) (path : Text) :
    ((db'.reporting w.cwd path).run w path).outcome = ((db.reporting w.cwd path).run w path).outcome ∧
      ((db'.reporting w.cwd path).run w path).world = ((db.reporting w.cwd path).run w path).world := by
  obtain ⟨flags, rfl⟩ := h
  refine run_congr _ _ rfl ?_
  simp only [traceCommand, reporting, Table.get?_put, if_true]
  rfl

end Alike

theorem alike_reporting (db : Database) (cwd path : Text) : db.Alike (db.reporting cwd path) :=
  ⟨_, rfl⟩

theorem setFlag_of_find {u : TranslationUnit} (h : db.find cwd path = .ok u) (on : Bool) :
    db.setFlag cwd path on = .ok { db with flags := db.flags.put (Path.key cwd path) on } := by
  rw [setFlag, h]
  rfl

theorem run_of_not_find {f : Fault} (h : db.find w.cwd path = .error f) :
    db.run w path = ⟨.failure f, w, []⟩ := by
  rw [run, traceCommand, h]

/-- A run changes what is to be run and what was run, and nothing else about the world. -/
theorem view_run (db : Database) (w : World) (path : Text) :
    (db.run w path).world.view = w.view ∧ (db.run w path).world.host = w.host := by
  obtain hsame | ⟨i, -, hworld⟩ := world_run_cases db path w
  · rw [hsame]
    exact ⟨rfl, rfl⟩
  · rw [hworld]
    exact ⟨rfl, rfl⟩

end Database

namespace Workshop

open Trace Session

variable {view : FileView} {marker path : Text} {db : Database} {w : World} {g : Graph}

theorem collect_eq_value {o : Workshop} {output : Text} :
    (collaborators.collect path o).outcome = .value output ↔
      (o.database.run o.world path).outcome = .value output :=
  Outcome.mapFailure_eq_value

theorem directories_eq_value {o : Workshop} {directories : List Text} :
    (collaborators.directories path o).outcome = .value directories ↔
      o.database.directories o.world.cwd path = .ok directories :=
  Outcome.mapFailure_eq_value.trans Outcome.ofExcept_eq_value

/-- Nothing but the run of a compiler is interrupted. -/
theorem collect_eq_interrupted {o : Workshop} :
    (collaborators.collect path o).outcome = .interrupted ↔
      (o.database.run o.world path).outcome = .interrupted :=
  Outcome.mapFailure_eq_interrupted

theorem directories_ne_interrupted {o : Workshop} :
    (collaborators.directories path o).outcome ≠ .interrupted :=
  Outcome.mapFailure_eq_interrupted.not.mpr Outcome.ofExcept_ne_interrupted

/-- A file that the database knows has a flag. -/
theorem flag_of_find {u : TranslationUnit} (h : db.find w.cwd path = .ok u) :
    collaborators.flag path ⟨db, w⟩ =
      ⟨.value ((db.flags.get? (Path.key w.cwd path)).getD false), ⟨db, w⟩, []⟩ := by
  simp only [collaborators, answer, Database.flag, h]
  rfl

/-- It can be set in every database alike. -/
theorem setFlag_of_find {u : TranslationUnit} (h : db.find w.cwd path = .ok u) (on : Bool) :
    collaborators.setFlag path on ⟨db, w⟩ =
      ⟨.value (), ⟨{ db with flags := db.flags.put (Path.key w.cwd path) on }, w⟩, []⟩ := by
  simp only [collaborators, Database.setFlag_of_find h]

/-- What a trace with a database needs for its merge: the output of a run while its flag is on, and the
directories to search. -/
theorem supplies_iff {output : Text} {directories : List Text} :
    collaborators.Supplies path ⟨db, w⟩ output directories ↔
      ((db.reporting w.cwd path).run w path).outcome = .value output ∧
        (db.reporting w.cwd path).directories w.cwd path = .ok directories := by
  cases hfind : db.find w.cwd path with
  | error f =>
    refine iff_of_false (fun h => ?_) (fun h => ?_)
    · obtain ⟨⟨before, hflag⟩, -⟩ := h
      simp only [collaborators, answer, Database.flag, hfind] at hflag
      cases hflag
    · rw [Database.run_of_not_find (((db.alike_reporting w.cwd path).find _ _).trans hfind)] at h
      cases h.1
  | ok u =>
    have hcwd := (Database.run_starts (db.reporting w.cwd path) path w).1
    -- the calls before the run succeed, and turn the flag on
    have hcalls : collaborators.Supplies path ⟨db, w⟩ output directories ↔
        (collaborators.collect path ⟨db.reporting w.cwd path, w⟩).outcome = .value output ∧
          (collaborators.directories path ⟨db.reporting w.cwd path,
            ((db.reporting w.cwd path).run w path).world⟩).outcome = .value directories := by
      simp only [Collaborators.Supplies, flag_of_find hfind, setFlag_of_find hfind]
      exact ⟨fun h => h.2.2.2, fun h => ⟨⟨_, rfl⟩, trivial, rfl, h⟩⟩
    rw [hcalls, collect_eq_value, directories_eq_value, hcwd]

/-! ### What a trace leaves behind -/

variable {t : Trace Workshop} {before : Bool} {e : Ending}

/-- Putting a flag back goes well if the database knows the file. -/
theorem final_of_restoring {u : TranslationUnit} (h : t.stage = .restoring before e)
    (hfind : t.outside.database.find t.outside.world.cwd path = .ok u) :
    (t.final (setup view marker) path).ending = e ∧
      (t.final (setup view marker) path).outside.world = t.outside.world ∧
      t.outside.database.Alike (t.final (setup view marker) path).outside.database := by
  have hset := setFlag_of_find hfind before
  obtain ⟨-, hout, hstage | ⟨hinterrupted, -⟩⟩ := step_of_restoring (setup view marker) path h
  · rw [← final_step, final_of_finished hstage, hout]
    refine ⟨ending_of_finished hstage, ?_, ?_⟩
    · exact congrArg (fun r => r.state.world) hset
    · exact (congrArg (fun r => r.state.database) hset) ▸ ⟨_, rfl⟩
  · cases (congrArg Reply.outcome hset).symm.trans hinterrupted

/-- The rest of a trace from the run of its compiler on. -/
theorem final_of_collecting {u : TranslationUnit} (h : t.stage = .collecting before)
    (hout : t.outside = ⟨db, w⟩) (hfind : db.find w.cwd path = .ok u) :
    (t.final (setup view marker) path).outside.world = (db.run w path).world ∧
      db.Alike (t.final (setup view marker) path).outside.database ∧
      ((db.run w path).outcome ≠ .interrupted →
        (t.final (setup view marker) path).ending ≠ .interrupted) := by
  let o : Workshop := ⟨db, (db.run w path).world⟩
  have hknown : o.database.find o.world.cwd path = .ok u := by
    rw [← hfind, ← (Database.run_starts db path w).1]
  -- however the trace gets there, in the end it puts the flag back
  have hclose : ∀ {t' : Trace Workshop} {e : Ending}, t'.stage = .restoring before e →
      t'.outside = o → ((db.run w path).outcome ≠ .interrupted → e ≠ .interrupted) →
        (t'.final (setup view marker) path).outside.world = (db.run w path).world ∧
        db.Alike (t'.final (setup view marker) path).outside.database ∧
        ((db.run w path).outcome ≠ .interrupted →
          (t'.final (setup view marker) path).ending ≠ .interrupted) := by
    intro t' e hstage ho he
    obtain ⟨hending, hworld, halike⟩ := final_of_restoring hstage (ho ▸ hknown)
    rw [hending, hworld, ho]
    exact ⟨rfl, by rwa [ho] at halike, he⟩
  obtain ⟨-, hout₁, hvalue⟩ := step_of_collecting (setup view marker) path h
  have hout₁ : (t.step (setup view marker) path).outside = o := by rw [hout₁, hout]; rfl
  rw [← final_step]
  obtain ⟨output, -, h₁⟩ | ⟨e, he, h₁⟩ := hvalue
  · obtain ⟨-, hout₂, ⟨directories, -, h₂⟩ | ⟨e, he, h₂⟩⟩ :=
      step_of_locating (setup view marker) path h₁
    · obtain ⟨-, hout₃, h₃⟩ := step_of_merging (setup view marker) path h₂
      rw [← final_step, ← final_step]
      exact hclose h₃ (by rw [hout₃, hout₂, hout₁]; rfl) fun _ => by simp
    · rw [← final_step]
      exact hclose h₂ (by rw [hout₂, hout₁]; rfl) fun _ =>
        Ending.Reports.ne_interrupted he directories_ne_interrupted
  · refine hclose h₁ hout₁ fun hrun => Ending.Reports.ne_interrupted he ?_
    exact collect_eq_interrupted.not.mpr (by rwa [hout])

/-- The trace of a file that the database knows gets its compiler to run, with its flag on. -/
theorem begin_of_find (view : FileView) (marker : Text) (g : Graph) {u : TranslationUnit}
    (h : db.find w.cwd path = .ok u) :
    let t := (Session.new g ⟨db, w⟩).begin.advance (setup view marker) path stepsToRun
    (∃ before, t.stage = .collecting before) ∧ t.outside = ⟨db.reporting w.cwd path, w⟩ := by
  have hflag : (setup view marker).collaborators.flag path ⟨db, w⟩ = _ := flag_of_find h
  have hset : (setup view marker).collaborators.setFlag path true ⟨db, w⟩ = _ :=
    setFlag_of_find h true
  simp only [stepsToRun, advance, step, begin, new, hflag, hset, reply, proceed]
  exact ⟨⟨_, rfl⟩, rfl⟩

/-- The trace of a file that the database does not know ends at once. -/
theorem begin_of_not_find (view : FileView) (marker : Text) (g : Graph) {f : Database.Fault}
    (h : db.find w.cwd path = .error f) :
    let t := (Session.new g ⟨db, w⟩).begin.step (setup view marker) path
    t.stage = .finished (.completed (.failed .precondition f.message)) ∧ t.outside = ⟨db, w⟩ := by
  have hflag : (setup view marker).collaborators.flag path ⟨db, w⟩ =
      ⟨.failure f.message, ⟨db, w⟩, []⟩ := by
    simp only [setup, collaborators, answer, Database.flag, h]
    rfl
  rw [step]
  simp only [begin, new, hflag]
  exact ⟨rfl, rfl⟩

/-- What a trace leaves of the world and of the database, and that nothing else can interrupt it than
the run of its compiler. -/
theorem ended_leaves (view : FileView) (marker : Text) (g : Graph) (db : Database) (w : World)
    (path : Text) :
    let ended := (Session.new g ⟨db, w⟩).ended (setup view marker) path
    let r := (db.reporting w.cwd path).run w path
    ended.outside.world = r.world ∧ db.Alike ended.outside.database ∧
      (r.outcome ≠ .interrupted → ended.ending ≠ .interrupted) := by
  intro ended r
  have halike := db.alike_reporting w.cwd path
  cases hfind : db.find w.cwd path with
  | error f =>
    obtain ⟨hstage, hout⟩ := begin_of_not_find view marker g hfind
    have hleft : ((Session.new g ⟨db, w⟩).begin.advance (setup view marker) path
        stepsToRun).stage.left ≤ 1 := left_advance_le (hstage ▸ Nat.zero_le 1) 2
    have hended : ended = (Session.new g ⟨db, w⟩).begin.step (setup view marker) path := by
      rw [show ended = _ from ended_of_left_le hleft, ← final_step, final_of_finished hstage]
    have hr : r = ⟨.failure f, w, []⟩ := Database.run_of_not_find ((halike.find _ _).trans hfind)
    rw [hended, hout, ending_of_finished hstage, hr]
    exact ⟨rfl, .refl db, fun _ => by simp⟩
  | ok u =>
    obtain ⟨⟨before, hstage⟩, hout⟩ := begin_of_find view marker g hfind
    obtain ⟨t, hended, ht, -, hoft⟩ := ended_of_collecting hstage hout
    obtain ⟨hworld, hdatabase, hending⟩ :=
      final_of_collecting ht hoft ((halike.find w.cwd path).trans hfind)
    rw [show ended = _ from hended]
    exact ⟨hworld, halike.trans hdatabase, hending⟩

end Workshop

end IncludeTrace
