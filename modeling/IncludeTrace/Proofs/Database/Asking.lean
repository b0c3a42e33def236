import IncludeTrace.Proofs.Database.Units
import IncludeTrace.Proofs.Database.Wrappers
import IncludeTrace.Proofs.World.Requests
import IncludeTrace.World.Standard

/-!
# How asking a database fails

Whoever asks a database about a file is told to expect that the file cannot be traced: it is no source,
it is not in the database, its command cannot be split or has no compiler, or the compiler is missing or
takes too long (`Database.Fault.isPromised`). Two things are not among these. The command of an entry
may be illegible, because its values are of the wrong kind (`Database.Illegible`), and the compiler may
not start: the system does not take a word of the command or the directory, or it refuses the run.
`Database.fails_as_promised` says that nothing else can happen, and that both do.
-/

namespace IncludeTrace.Database

open Command

variable {db : Database} {w : World} {cwd path : Text} {fields : Table Json Letters}

/-- Whether a fault in an entry counts as a file that cannot be traced. -/
def EntryFault.isPromised : EntryFault → Bool
  | .split _ => true
  | .notIterable _ | .notText _ => false

/-- Whether a fault counts as a file that cannot be traced, and is not one in the program or the system.
-/
def Fault.isPromised : Fault → Bool
  | .notSource _ | .unknown _ _ | .noCompiler | .missingCompiler _ | .timedOut _ _ => true
  | .entry f => f.isPromised
  | .system _ | .unforeseen _ => false

/-! ### Illegible commands -/

/-- Whether a value is nothing, yes or no, or a number. -/
def isScalar : Json → Bool
  | .null | .bool _ | .number _ => true
  | .string _ | .list _ | .object _ => false

/-- The command of an entry is **illegible** if its list of words is a scalar that is not hollow, or if
there is no list, or a hollow one, and the text of the command is no text. -/
inductive Illegible (fields : Table Json Letters) : Prop
  | arguments {v : Json} (h : fields.get? "arguments" = some v) (hfull : v.isHollow = false)
      (hscalar : isScalar v = true)
  | command {v : Json} (hhollow : ∀ a, fields.get? "arguments" = some a → a.isHollow = true)
      (h : fields.get? "command" = some v) (htext : isText v = false)

theorem exists_commandWords_eq_error_iff {v : Json} :
    (∃ f, commandWords v = .error f ∧ f.isPromised = false) ↔ isText v = false := by
  cases v with
  | string command =>
    simp only [commandWords, isText]
    cases splitCommand command.toText <;> simp [Except.mapError, EntryFault.isPromised]
  | _ => simp [commandWords, isText, EntryFault.isPromised]

/-- A list that is not hollow cannot be read if it is a scalar. -/
theorem exists_entryWords_eq_error_of_full {v : Json} (h : fields.get? "arguments" = some v)
    (hfull : v.isHollow = false) :
    (∃ f, entryWords fields = .error f ∧ f.isPromised = false) ↔ isScalar v = true := by
  simp only [entryWords, h, hfull, Bool.false_eq_true, if_false]
  cases v <;> simp [listedWords?, isScalar, EntryFault.isPromised]

/-- Without a list, or with a hollow one, the text of the command is split. -/
theorem entryWords_of_hollow (hhollow : ∀ a, fields.get? "arguments" = some a → a.isHollow = true) :
    entryWords fields = commandWords ((fields.get? "command").getD (.text [])) := by
  rw [entryWords]
  cases h : fields.get? "arguments" with
  | none => rfl
  | some a => simp only [hhollow a h, if_true]

/-- **An illegible command is what is wrong with an entry**, apart from commands that cannot be split.
-/
theorem exists_entryWords_eq_error_iff :
    (∃ f, entryWords fields = .error f ∧ f.isPromised = false) ↔ Illegible fields := by
  by_cases hhollow : ∀ a, fields.get? "arguments" = some a → a.isHollow = true
  · rw [entryWords_of_hollow hhollow, exists_commandWords_eq_error_iff]
    constructor
    · intro htext
      cases h : fields.get? "command" with
      | none =>
        rw [h] at htext
        cases htext
      | some v =>
        rw [h] at htext
        exact .command hhollow h htext
    · rintro (⟨h, hfull, -⟩ | ⟨-, h, htext⟩)
      · cases (hhollow _ h).symm.trans hfull
      · rwa [h]
  · obtain ⟨v, h, hfull⟩ : ∃ v, fields.get? "arguments" = some v ∧ v.isHollow = false := by
      simpa using hhollow
    rw [exists_entryWords_eq_error_of_full h hfull]
    constructor
    · exact .arguments h hfull
    · rintro (⟨h', -, hscalar⟩ | ⟨hhollow', -, -⟩)
      · rwa [Option.some.inj (h.symm.trans h')]
      · exact absurd hhollow' hhollow

/-! ### Asking -/

theorem isPromised_of_find {f : Fault} (h : db.find cwd path = .error f) : f.isPromised = true := by
  rw [find] at h
  split at h
  · exact Except.error.inj h ▸ rfl
  · split at h
    · cases h
    · exact Except.error.inj h ▸ rfl

/-- What only needs the unit of a file fails as finding it does. -/
theorem isPromised_of_find_bind {α : Type} {make : TranslationUnit → α} {f : Fault}
    (h : (db.find cwd path).bind (fun u => .ok (make u)) = .error f) : f.isPromised = true := by
  cases hfind : db.find cwd path with
  | error g =>
    rw [hfind] at h
    exact Except.error.inj h ▸ isPromised_of_find hfind
  | ok u =>
    rw [hfind] at h
    cases h

/-- Whatever is made of the words of an entry, what fails otherwise than promised is reading them. -/
theorem exists_bind_eq_error_iff {α : Type} {make : List Text → Except Fault α}
    (hmake : ∀ words f, make words = .error f → f.isPromised = true) :
    (∃ f, ((entryWords fields).mapError Fault.entry).bind make = .error f ∧ f.isPromised = false) ↔
      Illegible fields := by
  rw [← exists_entryWords_eq_error_iff]
  cases entryWords fields with
  | error f => simp [Except.mapError, Except.bind, Fault.isPromised]
  | ok words =>
    simp only [Except.mapError, Except.bind, reduceCtorEq, false_and, exists_false, iff_false]
    rintro ⟨f, hf, hunpromised⟩
    cases (hmake words f hf).symm.trans hunpromised

/-- **Asking for the directories** of a file fails as promised, unless its command is illegible. -/
theorem exists_directories_eq_error_iff :
    (∃ f, db.directories cwd path = .error f ∧ f.isPromised = false) ↔
      ∃ u, db.find cwd path = .ok u ∧ Illegible u.fields := by
  cases hfind : db.find cwd path with
  | error f =>
    have hdirectories : db.directories cwd path = .error f := by
      rw [directories, hfind]
      rfl
    simp [hdirectories, isPromised_of_find hfind]
  | ok u =>
    have hbind : db.directories cwd path = ((entryWords u.fields).mapError .entry).bind fun words =>
        .ok (searchDirectories cwd words u.directory) := by
      rw [directories_of_find hfind]
      cases entryWords u.fields <;> rfl
    rw [hbind, exists_bind_eq_error_iff]
    · simp
    · intro words f hf
      cases hf

/-- **Making the trace command** of a file fails as promised, unless its command is illegible. -/
theorem exists_traceCommand_eq_error_iff :
    (∃ f, (db.traceCommand cwd path).1 = .error f ∧ f.isPromised = false) ↔
      ∃ u, db.find cwd path = .ok u ∧ Illegible u.fields := by
  cases hfind : db.find cwd path with
  | error f =>
    have htrace : (db.traceCommand cwd path).1 = .error f := by
      simp only [traceCommand, hfind]
    simp [htrace, isPromised_of_find hfind]
  | ok u =>
    rw [traceCommand_of_find hfind, exists_bind_eq_error_iff]
    · simp
    · intro words f hf
      split at hf
      · exact Except.error.inj hf ▸ rfl
      · cases hf

/-! ### Running -/

/-- What comes of a run of a compiler is promised, unless the run is broken. -/
theorem exists_concludeRun_eq_failure_iff {timeout : Number} {r : Run} :
    (∃ f, (concludeRun path timeout r).1 = .failure f ∧ f.isPromised = false) ↔ r.isBroken = true := by
  cases r <;> simp [concludeRun, Fault.isPromised, Run.isBroken]

theorem concludeRun_eq_interrupted_iff {timeout : Number} {r : Run} :
    (concludeRun path timeout r).1 = .interrupted ↔ r = .interrupted := by
  cases r <;> simp [concludeRun]

theorem outcome_run_of_error {f : Fault} (h : (db.traceCommand w.cwd path).1 = .error f) :
    (db.run w path).outcome = .failure f := by
  rw [run]
  generalize db.traceCommand w.cwd path = traced at h ⊢
  obtain ⟨result, log⟩ := traced
  obtain rfl : result = .error f := h
  rfl

/-- Without its compiler a trace command is not run. -/
theorem outcome_run_of_missing {command : List Text} {directory : Text}
    (h : (db.traceCommand w.cwd path).1 = .ok (command, directory))
    (hprogram : w.hasProgram (command.headD []) = false) :
    (db.run w path).outcome = .failure (.missingCompiler (command.headD [])) := by
  rw [run]
  generalize db.traceCommand w.cwd path = traced at h ⊢
  obtain ⟨result, log⟩ := traced
  obtain rfl : result = .ok (command, directory) := h
  simp only [hprogram, Bool.not_false, if_true]

/-- **What comes of running a trace command** whose compiler is there: if the system takes it, what
comes of the next run, and otherwise something unforeseen. -/
theorem outcome_run_cases {command : List Text} {directory : Text}
    (h : (db.traceCommand w.cwd path).1 = .ok (command, directory))
    (hprogram : w.hasProgram (command.headD []) = true) :
    (w.takes ⟨command, directory, db.timeout⟩ = false ∧
      ∃ reason, (db.run w path).outcome = .failure (.unforeseen reason)) ∨
    (w.takes ⟨command, directory, db.timeout⟩ = true ∧
      (db.run w path).outcome = (concludeRun path db.timeout w.nextRun).1) := by
  rw [run]
  generalize db.traceCommand w.cwd path = traced at h ⊢
  obtain ⟨result, log⟩ := traced
  obtain rfl : result = .ok (command, directory) := h
  simp only [hprogram, Bool.not_true, Bool.false_eq_true, if_false]
  obtain ⟨htakes, reason, hrun⟩ | ⟨htakes, hrun⟩ := World.run_cases w ⟨command, directory, db.timeout⟩
  · exact .inl ⟨htakes, reason, by rw [hrun]⟩
  · exact .inr ⟨htakes, by rw [hrun]⟩

/-- **Running the compiler** of a file fails as promised, unless its trace command does not or the
compiler cannot be started. -/
theorem exists_run_eq_failure_iff :
    (∃ f, (db.run w path).outcome = .failure f ∧ f.isPromised = false) ↔
      (∃ f, (db.traceCommand w.cwd path).1 = .error f ∧ f.isPromised = false) ∨
      ∃ command directory, (db.traceCommand w.cwd path).1 = .ok (command, directory) ∧
        w.hasProgram (command.headD []) = true ∧
        (w.takes ⟨command, directory, db.timeout⟩ = false ∨ w.nextRun.isBroken = true) := by
  rcases htrace : (db.traceCommand w.cwd path).1 with f | ⟨command, directory⟩
  · simp [outcome_run_of_error htrace]
  · simp only [reduceCtorEq, false_and, exists_false, false_or, Except.ok.injEq, Prod.mk.injEq]
    cases hprogram : w.hasProgram (command.headD []) with
    | false =>
      constructor
      · rintro ⟨f, hf, hunpromised⟩
        rw [outcome_run_of_missing htrace hprogram] at hf
        rw [← Outcome.failure.inj hf] at hunpromised
        cases hunpromised
      · rintro ⟨_, _, ⟨rfl, rfl⟩, hfound, -⟩
        cases hprogram.symm.trans hfound
    | true =>
      obtain ⟨htakes, reason, hrun⟩ | ⟨htakes, hrun⟩ := outcome_run_cases htrace hprogram
      · rw [hrun]
        exact iff_of_true ⟨_, rfl, rfl⟩ ⟨command, directory, ⟨rfl, rfl⟩, hprogram, .inl htakes⟩
      · rw [hrun, exists_concludeRun_eq_failure_iff]
        constructor
        · exact fun hbroken => ⟨command, directory, ⟨rfl, rfl⟩, hprogram, .inr hbroken⟩
        · rintro ⟨_, _, ⟨rfl, rfl⟩, -, hnot | hbroken⟩
          · cases htakes.symm.trans hnot
          · exact hbroken

/-- **A run is interrupted** only if the run of the compiler is. -/
theorem head?_runs_of_interrupted (h : (db.run w path).outcome = .interrupted) :
    w.runs.head? = some .interrupted := by
  rcases htrace : (db.traceCommand w.cwd path).1 with f | ⟨command, directory⟩
  · rw [outcome_run_of_error htrace] at h
    cases h
  · cases hprogram : w.hasProgram (command.headD []) with
    | false =>
      rw [outcome_run_of_missing htrace hprogram] at h
      cases h
    | true =>
      obtain ⟨-, reason, hrun⟩ | ⟨-, hrun⟩ := outcome_run_cases htrace hprogram
      · cases hrun.symm.trans h
      · rw [hrun, concludeRun_eq_interrupted_iff] at h
        exact (World.nextRun_eq_iff (by simp)).mp h

/-- A trace command is run in the directory of its unit. -/
theorem exists_find_of_traceCommand {command : List Text} {directory : Text}
    (h : (db.traceCommand cwd path).1 = .ok (command, directory)) :
    ∃ u, db.find cwd path = .ok u ∧ directory = u.directory := by
  rw [traceCommand] at h
  split at h
  · cases h
  · next u hfind =>
    split at h
    · cases h
    · dsimp only at h
      split at h
      · cases h
      · exact ⟨u, hfind, (Prod.mk.inj (Except.ok.inj h)).2.symm⟩

/-- What fails otherwise than promised in a run is seen at the unit of the file. -/
theorem exists_run_eq_failure_iff_of_unit :
    (∃ f, (db.run w path).outcome = .failure f ∧ f.isPromised = false) ↔
      ∃ u, db.find w.cwd path = .ok u ∧ (Illegible u.fields ∨
        ∃ command, (db.traceCommand w.cwd path).1 = .ok (command, u.directory) ∧
          w.hasProgram (command.headD []) = true ∧
          (w.takes ⟨command, u.directory, db.timeout⟩ = false ∨ w.nextRun.isBroken = true)) := by
  rw [exists_run_eq_failure_iff, exists_traceCommand_eq_error_iff]
  constructor
  · rintro (⟨u, hfind, hillegible⟩ | ⟨command, directory, htrace, hprogram, hbroken⟩)
    · exact ⟨u, hfind, .inl hillegible⟩
    · obtain ⟨u, hfind, rfl⟩ := exists_find_of_traceCommand htrace
      exact ⟨u, hfind, .inr ⟨command, htrace, hprogram, hbroken⟩⟩
  · rintro ⟨u, hfind, hillegible | ⟨command, htrace, hprogram, hbroken⟩⟩
    · exact .inl ⟨u, hfind, hillegible⟩
    · exact .inr ⟨command, u.directory, htrace, hprogram, hbroken⟩

/-- **Asking a database fails as promised, unless the command of an entry is illegible or the compiler
cannot be started.**

The entry of a file and its flag, and setting the flag, fail in no other way than promised. Asking for
its directories does just if its command is illegible. Running its compiler does just if its command is
illegible or the compiler, which is there, cannot be started: the system does not take a word of the
trace command or the directory, or the run is refused by the system or fails for a reason of its own.
And a run is interrupted only if the run of the compiler is. -/
theorem fails_as_promised (db : Database) (w : World) (path : Text) :
    (∀ f, db.find w.cwd path = .error f → f.isPromised = true) ∧
    (∀ f, db.flag w.cwd path = .error f → f.isPromised = true) ∧
    (∀ on f, db.setFlag w.cwd path on = .error f → f.isPromised = true) ∧
    ((∃ f, db.directories w.cwd path = .error f ∧ f.isPromised = false) ↔
      ∃ u, db.find w.cwd path = .ok u ∧ Illegible u.fields) ∧
    ((∃ f, (db.run w path).outcome = .failure f ∧ f.isPromised = false) ↔
      ∃ u, db.find w.cwd path = .ok u ∧ (Illegible u.fields ∨
        ∃ command, (db.traceCommand w.cwd path).1 = .ok (command, u.directory) ∧
          w.hasProgram (command.headD []) = true ∧
          (w.takes ⟨command, u.directory, db.timeout⟩ = false ∨ w.nextRun.isBroken = true))) ∧
    ((db.run w path).outcome = .interrupted → w.runs.head? = some .interrupted) := by
  exact ⟨fun f => isPromised_of_find, fun f => isPromised_of_find_bind,
    fun on f => isPromised_of_find_bind, exists_directories_eq_error_iff,
    exists_run_eq_failure_iff_of_unit, head?_runs_of_interrupted⟩

/-- **Three files whose asking is not promised to fail**, in a database that opens. The list of words of
one entry is a number. The directory of another is gone, so the system refuses to start its compiler.
And on a host that takes no text with a NUL, the command of the third one cannot be run. -/
theorem fails_unpromised :
    let host : Host := { Host.standard with
      unfit? := fun t => if t.contains '\x00' then some "embedded null byte" else none }
    let w : World := ⟨"/w", [("/b/compile_commands.json", Utf8.encode
        ("[\x7b\"file\": \"a.cpp\", \"arguments\": 5\x7d, ".toList ++
          "\x7b\"directory\": \"/gone\", \"file\": \"/b/b.cpp\", \"command\": \"cc b.cpp\"\x7d, ".toList ++
          "\x7b\"file\": \"c.cpp\", \"arguments\": [\"cc\", \"-DX=\\u0000\"]\x7d]".toList))],
      [], ["cc"], [.refused ⟨2, "No such file or directory", some "/gone"⟩], [], [], [], [], host⟩
    let fault (db : Database) (path : Text) : Option (Bool × Text) :=
      match (db.run w path).outcome with
      | .failure f => some (f.isPromised, f.message)
      | _ => none
    let faults : List (Option (Bool × Text)) :=
      match (openIn w "/b" standardTimeout).1 with
      | .error _ => []
      | .ok db =>
        [match db.directories w.cwd "/b/a.cpp" with
          | .error f => some (f.isPromised, f.message)
          | .ok _ => none,
        fault db "/b/b.cpp", fault db "/b/c.cpp"]
    faults = [some (false, "'int' object is not iterable".toList),
      some (false, "[Errno 2] No such file or directory: '/gone'".toList),
      some (false, "embedded null byte".toList)] := by
  decide +kernel

end IncludeTrace.Database
