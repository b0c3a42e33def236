import IncludeTrace.Proofs.Session.Course
import Mathlib.Logic.Function.Basic

/-!
# Flags are put back

A **flag map** says which file a path names and for which files the flag is on; several paths may name
one file. Collaborators keep a flag map if reading a flag reads it, setting a flag changes it for one
file at most, and no other call changes it (`Collaborators.KeepsFlags`).

`Stage.FlagsAre` says what the flags are at each stage of a trace. Every move preserves it
(`Trace.flagsAre_move`), so that along every course the flags are in the end what they were in the
beginning, provided that the call which puts the flag back succeeds (`Trace.flags_of_restores`).
-/

namespace IncludeTrace

variable {σ : Type}

/-- A **flag map**: the file that a path names, or why it names none, and the files whose flag is on. -/
structure FlagMap where
  file : Text → Outcome Text Text
  isOn : Text → Bool

namespace FlagMap

variable (m : FlagMap) (path : Text)

/-- The flag of the file that a path names. -/
def reading : Outcome Text Bool :=
  match m.file path with
  | .value key => .value (m.isOn key)
  | .failure reason => .failure reason
  | .interrupted => .interrupted

/-- The flag map with the flag of one file switched, if the path names a file. -/
def put (on : Bool) : FlagMap :=
  match m.file path with
  | .value key => { m with isOn := Function.update m.isOn key on }
  | _ => m

@[simp]
theorem file_put (on : Bool) : (m.put path on).file = m.file := by
  rw [put]
  split <;> rfl

@[simp]
theorem put_put (on on' : Bool) : (m.put path on).put path on' = m.put path on' := by
  rw [put, file_put]
  cases hfile : m.file path with
  | value key => simp [put, hfile]
  | _ => simp [put, hfile]

variable {m path}

theorem file_of_reading {on : Bool} (h : m.reading path = .value on) :
    ∃ key, m.file path = .value key ∧ m.isOn key = on := by
  rw [reading] at h
  split at h
  · next key hfile => exact ⟨key, hfile, Outcome.value.inj h⟩
  · cases h
  · cases h

/-- Putting the flag of a file to what it is changes nothing. -/
theorem put_of_reading {on : Bool} (h : m.reading path = .value on) : m.put path on = m := by
  obtain ⟨key, hfile, rfl⟩ := file_of_reading h
  simp [put, hfile]

/-- A flag that was switched on reads so. -/
theorem reading_put {on on' : Bool} (h : m.reading path = .value on) :
    (m.put path on').reading path = .value on' := by
  obtain ⟨key, hfile, -⟩ := file_of_reading h
  simp [reading, put, hfile]

end FlagMap

/-- Collaborators **keep the flags** of a flag map: reading a flag reads it, and only setting a flag
changes it, for one file. A call that fails to set the flag may have done so, or done something else to
the flag of this file. -/
structure Collaborators.KeepsFlags (c : Collaborators σ) (flags : σ → FlagMap) : Prop where
  reading : ∀ path o, (c.flag path o).outcome = (flags o).reading path
  set : ∀ path on o, ∃ on', flags (c.setFlag path on o).state = (flags o).put path on' ∧
    ((c.setFlag path on o).outcome = .value () → on' = on)
  flag : ∀ path o, flags (c.flag path o).state = flags o
  start : ∀ path o, flags (c.start path o).state = flags o
  collect : ∀ path o, flags (c.collect path o).state = flags o
  directories : ∀ path o, flags (c.directories path o).state = flags o
  requests : ∀ o, flags (c.requests o).2 = flags o

/-- What the flags `m` are at a stage of the trace of a file, if they were `m₀` in the beginning. -/
def Stage.FlagsAre (path : Text) (m₀ m : FlagMap) : Stage → Prop
  | .reading | .finished _ => m = m₀
  | .enabling before => m = m₀ ∧ m₀.reading path = .value before
  | .starting before | .collecting before | .locating before _ | .merging before _ _ =>
    m = m₀.put path true ∧ m₀.reading path = .value before
  | .restoring before _ => (∃ on, m = m₀.put path on) ∧ m₀.reading path = .value before

namespace Trace

variable {s : Setup σ} {path : Text} {t t' u : Trace σ} {flags : σ → FlagMap} {m₀ : FlagMap}

/-- Whether the flag is put back: whenever the trace comes to that, the call succeeds. -/
def PutsBack (s : Setup σ) (path : Text) (t : Trace σ) : Prop :=
  ∀ before e, t.stage = .restoring before e →
    (s.collaborators.setFlag path before t.outside).outcome = .value ()

/-- A course **restores** the flag if it ends a trace and all along the flag is put back. -/
def Restores (s : Setup σ) (path : Text) (t t' : Trace σ) : Prop :=
  Ends s path t t' ∧ ∀ u, Moves s path t u → Moves s path u t' → PutsBack s path u

/-- A call that keeps the flags, made while the flag is on. -/
theorem IsCall.flagsAre {α : Type} {before : Bool} {r : Reply σ α} {next : α → Stage}
    (hcall : t.IsCall s path before r next) (hkept : flags r.state = flags t.outside)
    (hon : flags t.outside = m₀.put path true) (hread : m₀.reading path = .value before)
    (hnext : ∀ a, (next a).FlagsAre path m₀ (m₀.put path true)) :
    (t.step s path).stage.FlagsAre path m₀ (flags (t.step s path).outside) := by
  obtain ⟨-, hout, ⟨a, -, hstage⟩ | ⟨e, -, hstage⟩⟩ := hcall
  · rw [hout, hkept, hon, hstage]
    exact hnext a
  · rw [hout, hkept, hon, hstage]
    exact ⟨⟨true, rfl⟩, hread⟩

/-- **Step.** A step takes the flags from what they are at its stage to what they are at the next. -/
theorem flagsAre_step (hc : s.collaborators.KeepsFlags flags) (hback : PutsBack s path t)
    (h : t.stage.FlagsAre path m₀ (flags t.outside)) :
    (t.step s path).stage.FlagsAre path m₀ (flags (t.step s path).outside) := by
  cases hstage : t.stage with
  | reading =>
    rw [hstage] at h
    have hread := hc.reading path t.outside
    obtain ⟨-, hout, ⟨before, hflag, hb⟩ | ⟨e, -, hb⟩⟩ := step_of_reading s path hstage
    · rw [hout, hc.flag, hb]
      exact ⟨h, by rw [← h, ← hread, hflag]⟩
    · rw [hout, hc.flag, hb]
      exact h
  | enabling before =>
    rw [hstage] at h
    obtain ⟨hflags, hread⟩ := h
    obtain ⟨on, hput, hsuccess⟩ := hc.set path true t.outside
    obtain ⟨-, hout, ⟨_, hvalue, hb⟩ | ⟨e, -, hb⟩⟩ := step_of_enabling s path hstage
    · rw [hout, hput, hflags, hb, hsuccess hvalue]
      exact ⟨rfl, hread⟩
    · -- the failed call may have left the flag at anything
      rw [hout, hput, hflags, hb]
      exact ⟨⟨on, rfl⟩, hread⟩
  | starting before =>
    rw [hstage] at h
    exact (step_of_starting s path hstage).flagsAre (hc.start _ _) h.1 h.2 fun _ => ⟨rfl, h.2⟩
  | collecting before =>
    rw [hstage] at h
    exact (step_of_collecting s path hstage).flagsAre (hc.collect _ _) h.1 h.2 fun _ => ⟨rfl, h.2⟩
  | locating before output =>
    rw [hstage] at h
    exact (step_of_locating s path hstage).flagsAre (hc.directories _ _) h.1 h.2 fun _ => ⟨rfl, h.2⟩
  | merging before output directories =>
    rw [hstage] at h
    obtain ⟨-, hout, hb⟩ := step_of_merging s path hstage
    rw [hout, hb]
    exact ⟨⟨true, h.1⟩, h.2⟩
  | restoring before e =>
    rw [hstage] at h
    obtain ⟨⟨on, hflags⟩, hread⟩ := h
    obtain ⟨on', hput, hsuccess⟩ := hc.set path before t.outside
    -- whatever the flag of this file is now, it gets the value that was read in the beginning
    have hout : flags (t.step s path).outside = m₀ := by
      rw [(step_of_restoring s path hstage).2.1, hput, hflags, hsuccess (hback before e hstage),
        FlagMap.put_put, FlagMap.put_of_reading hread]
    obtain ⟨-, -, hb | ⟨-, hb⟩⟩ := step_of_restoring s path hstage
    · rw [hb]
      exact hout
    · rw [hb]
      exact hout
  | finished e =>
    rwa [step_of_finished hstage]

/-- **Move.** So does every other move. -/
theorem flagsAre_move (hc : s.collaborators.KeepsFlags flags) (hback : PutsBack s path t)
    (hmove : Move s path t u) (h : t.stage.FlagsAre path m₀ (flags t.outside)) :
    u.stage.FlagsAre path m₀ (flags u.outside) := by
  cases hmove with
  | step => exact flagsAre_step hc hback h
  | refuse =>
    rw [Session.refuseMeanwhile]
    split
    · simpa [hc.requests] using h
    · exact h
  | breakOff hstage g e log =>
    rw [hstage] at h
    exact ⟨⟨true, h.1⟩, h.2⟩

/-- **Run.** Along every course that puts the flag back. -/
theorem flagsAre_moves (hc : s.collaborators.KeepsFlags flags)
    (hback : ∀ u, Moves s path t u → Moves s path u t' → PutsBack s path u)
    (h : t.stage.FlagsAre path m₀ (flags t.outside)) (hmoves : Moves s path t t') :
    t'.stage.FlagsAre path m₀ (flags t'.outside) := by
  induction hmoves with
  | refl => exact h
  | tail hmoves hmove ih =>
    exact flagsAre_move hc (hback _ hmoves (.single hmove)) hmove
      (ih fun u hu hu' => hback u hu (hu'.tail hmove))

/-- **A course that restores the flag** leaves all flags as they were. -/
theorem flags_of_restores (hc : s.collaborators.KeepsFlags flags) (hstage : t.stage = .reading)
    (h : Restores s path t t') : flags t'.outside = flags t.outside := by
  obtain ⟨⟨hmoves, e, hend⟩, hback⟩ := h
  have hflags : t'.stage.FlagsAre path (flags t.outside) (flags t'.outside) :=
    flagsAre_moves hc hback (by rw [hstage]; rfl) hmoves
  rwa [hend] at hflags

/-! ### A flag that cannot be read -/

/-- **Run.** A trace whose flag cannot be read makes the call to read it, and no other. -/
theorem calls_of_unread {s : Setup σ} {t t' : Trace (σ × List Call)} {calls : List Call} {o : σ}
    (hread : ∀ on, (s.collaborators.flag path o).outcome ≠ .value on)
    (hmoves : Moves s.recorded path t t') (hstage : t.stage = .reading)
    (hout : t.outside = (o, calls)) :
    t'.stage = .reading ∧ t'.outside = (o, calls) ∨
      ∃ e, t'.stage = .finished e ∧ t'.outside.2 = calls ++ [.flag path] := by
  induction hmoves with
  | refl => exact .inl ⟨hstage, hout⟩
  | @tail u v _ hmove ih =>
    cases hmove with
    | step =>
      obtain ⟨hu, ho⟩ | ⟨e, hu, hcalls⟩ := ih
      · obtain ⟨-, -, ⟨on, hon, -⟩ | ⟨e, -, he⟩⟩ := step_of_reading s.recorded path hu
        · rw [ho] at hon
          exact absurd hon (hread on)
        · exact .inr ⟨e, he, by rw [calls_step, hu, ho]; rfl⟩
      · rw [step_of_finished hu]
        exact .inr ⟨e, hu, hcalls⟩
    | refuse =>
      -- no compiler runs, so nothing comes in meanwhile
      have hrunning : u.isRunning = false := by
        obtain ⟨hu, -⟩ | ⟨e, hu, -⟩ := ih <;> rw [isRunning, hu]
      rwa [Session.refuseMeanwhile, hrunning]
    | breakOff hu => obtain ⟨hu', -⟩ | ⟨e, hu', -⟩ := ih <;> cases hu.symm.trans hu'

end Trace

namespace Session

variable {setup : Setup σ} {flags : σ → FlagMap} {s s' : Session σ}

/-- **Run.** Traces that restore their flags leave all flags as they were. -/
theorem flags_of_series (hc : setup.collaborators.KeepsFlags flags)
    (h : Series (Trace.Restores setup) s s') : flags s'.outside = flags s.outside := by
  induction h with
  | refl => rfl
  | snoc _ _ ht ih => exact (Trace.flags_of_restores hc rfl ht).trans ih

end Session

end IncludeTrace
