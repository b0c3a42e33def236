import IncludeTrace.World.Basic

/-!
# Requests to the system

Before the system looks for a file or a compiler, it looks at the texts it is given. One that is unfit
is not taken, whatever is there. So a file is only refused by the system if its name is fit
(`World.exists_of_read_eq_error`), which the name of a file that is there is (`World.isFit_of_isFile`).

There are two ways in which a run of a compiler goes. The system may not take the command, because a
word of it or the directory is unfit; then nothing is run. Otherwise the run does what comes next in the
world, and the world notes it. This is `World.run_cases`, and all that is known of runs follows from it.
-/

namespace IncludeTrace

/-- Whether a run fails in another way than by taking too long or being interrupted. -/
def Run.isBroken : Run → Bool
  | .refused _ | .failed _ => true
  | .exited _ _ _ | .timedOut | .interrupted => false

namespace World

variable {w : World} {path : Text} {i : Invocation} {r : Run}

/-! ### Reading files -/

/-- What can be read is a file. -/
theorem isFile_of_read {bytes : List UInt8} (h : w.read path = .ok bytes) :
    w.isFile path = true := by
  rw [read] at h
  split at h
  · cases h
  · split at h
    · cases h
    · rw [isFile]
      split at h
      · cases h
      · cases h
      · next hbytes _ => rw [hbytes, Option.isSome_some]

/-- The name of a file is fit. -/
theorem isFit_of_isFile (h : w.isFile path = true) : w.isFit path = true := by
  cases hfit : w.isFit path with
  | true => rfl
  | false => simp [isFile, bytes?, hfit] at h

/-- A file whose name is fit is only refused by the system. -/
theorem exists_of_read_eq_error {refusal : OpenRefusal}
    (hfit : w.isFit path = true) (h : w.read path = .error refusal) : ∃ e, refusal = .system e := by
  rw [isFit, Option.isNone_iff_eq_none] at hfit
  rw [read, hfit] at h
  dsimp only at h
  split at h
  · exact ⟨_, (Except.error.inj h).symm⟩
  · split at h
    · exact ⟨_, (Except.error.inj h).symm⟩
    · exact ⟨_, (Except.error.inj h).symm⟩
    · cases h

/-! ### Running compilers -/

/-- Whether the system takes the words of a command and its directory. -/
def takes (w : World) (i : Invocation) : Bool := (i.command ++ [i.directory]).all w.isFit

/-- What the next run does; without one described it prints nothing and succeeds. -/
def nextRun (w : World) : Run := w.runs.headD (.exited [] [] 0)

/-- **Running a compiler** does what comes next, if the system takes the command. -/
theorem run_cases (w : World) (i : Invocation) :
    (w.takes i = false ∧ ∃ reason, w.run i = .error reason) ∨
      (w.takes i = true ∧ w.run i =
        .ok (w.nextRun, { w with runs := w.runs.tail, invocations := w.invocations ++ [i] })) := by
  cases h : (i.command ++ [i.directory]).findSome? w.host.unfit? with
  | some reason =>
    obtain ⟨t, ht, hunfit⟩ := List.exists_of_findSome?_eq_some h
    refine .inl ⟨?_, reason, by rw [run, h]⟩
    rw [takes, List.all_eq_false]
    exact ⟨t, ht, by simp [isFit, hunfit]⟩
  | none =>
    refine .inr ⟨?_, ?_⟩
    · rw [takes, List.all_eq_true]
      exact fun t ht => by simp [isFit, List.findSome?_eq_none_iff.mp h t ht]
    · rw [run, h]
      obtain ⟨cwd, files, directories, programs, runs, _⟩ := w
      cases runs <;> rfl

/-- A run does something if the system takes the command, and then it does what comes next. -/
theorem run_eq_ok_iff : (w.run i).map Prod.fst = .ok r ↔ w.takes i = true ∧ w.nextRun = r := by
  obtain ⟨htakes, reason, hrun⟩ | ⟨htakes, hrun⟩ := run_cases w i
  · simp [hrun, htakes, Except.map]
  · simp [hrun, htakes, Except.map]

/-- What does not just succeed is described. -/
theorem nextRun_eq_iff (hr : r ≠ .exited [] [] 0) : w.nextRun = r ↔ w.runs.head? = some r := by
  rw [nextRun]
  cases w.runs with
  | nil => simp [hr.symm]
  | cons next rest => simp

end World

end IncludeTrace
