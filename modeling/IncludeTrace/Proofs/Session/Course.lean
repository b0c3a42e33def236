import IncludeTrace.Proofs.Session.Steps
import Mathlib.Logic.Relation

/-!
# Courses

`Trace.step` takes a trace along one course: the one on which every merge goes as `Graph.merge` says. A
**course** is any way a trace can go. Besides steps it has requests that are turned down meanwhile, and
merges that end in any way at all, with any graph. What holds along every course
(`Trace.Ends`) holds of every trace of a session, in the foreground or in the background
(`Session.ends_of_concludes`).

To say which calls a course makes, `Collaborators.recorded` writes them down.
-/

namespace IncludeTrace

variable {σ : Type}

/-! ### Calls -/

/-- A call to a collaborator. -/
inductive Call
  | flag (path : Text)
  | setFlag (path : Text) (on : Bool)
  | start (path : Text)
  | collect (path : Text)
  | directories (path : Text)
  deriving DecidableEq

/-- The call that a trace makes in its next step. -/
def Stage.call? (path : Text) : Stage → Option Call
  | .reading => some (.flag path)
  | .enabling _ => some (.setFlag path true)
  | .starting _ => some (.start path)
  | .collecting _ => some (.collect path)
  | .locating _ _ => some (.directories path)
  | .restoring before _ => some (.setFlag path before)
  | .merging _ _ _ | .finished _ => none

/-- A reply with its call written down behind others. -/
def Reply.noted {α : Type} (r : Reply σ α) (calls : List Call) (call : Call) :
    Reply (σ × List Call) α :=
  ⟨r.outcome, (r.state, calls ++ [call]), r.log⟩

/-- Collaborators that write down every call made to them. -/
def Collaborators.recorded (c : Collaborators σ) : Collaborators (σ × List Call) where
  flag path o := (c.flag path o.1).noted o.2 (.flag path)
  setFlag path on o := (c.setFlag path on o.1).noted o.2 (.setFlag path on)
  start path o := (c.start path o.1).noted o.2 (.start path)
  collect path o := (c.collect path o.1).noted o.2 (.collect path)
  directories path o := (c.directories path o.1).noted o.2 (.directories path)
  requests o := ((c.requests o.1).1, (c.requests o.1).2, o.2)

/-- A setup with recorded collaborators. -/
def Setup.recorded (s : Setup σ) : Setup (σ × List Call) :=
  ⟨s.collaborators.recorded, s.view, s.marker⟩

namespace Trace

/-- **Step.** A step makes the call of its stage and no other. -/
theorem calls_step (s : Setup σ) (path : Text) (t : Trace (σ × List Call)) :
    (t.step s.recorded path).outside.2 = t.outside.2 ++ (t.stage.call? path).toList := by
  obtain ⟨stage, g, o, log⟩ := t
  cases stage with
  | merging before output directories => exact (List.append_nil _).symm
  | finished e => exact (List.append_nil _).symm
  | _ => rfl

/-! ### Courses of a trace -/

/-- A **move** of the trace of a file: a step, requests that are turned down, or a merge that ends in
any way, whatever it does to the graph and whatever it says. -/
inductive Move (s : Setup σ) (path : Text) : Trace σ → Trace σ → Prop
  | step (t : Trace σ) : Move s path t (t.step s path)
  | refuse (t : Trace σ) : Move s path t (Session.refuseMeanwhile s t).1
  | breakOff {t : Trace σ} {before : Bool} {output : Text} {directories : List Text}
      (h : t.stage = .merging before output directories) (g : Graph) (e : Ending)
      (log : List Entry) : Move s path t ⟨.restoring before e, g, t.outside, log⟩

/-- Any number of moves. -/
def Moves (s : Setup σ) (path : Text) : Trace σ → Trace σ → Prop :=
  Relation.ReflTransGen (Move s path)

/-- A course **ends** a trace if moves lead from the one to the other, ended one. -/
def Ends (s : Setup σ) (path : Text) (t t' : Trace σ) : Prop :=
  Moves s path t t' ∧ ∃ e, t'.stage = .finished e

variable {s : Setup σ} {path : Text} {t t' u : Trace σ}

/-- A property that moves preserve holds along every course. -/
theorem Moves.preserves {P : Trace σ → Prop} (hstep : ∀ t u, Move s path t u → P t → P u)
    (h : Moves s path t u) (ht : P t) : P u := by
  induction h with
  | refl => exact ht
  | tail _ hmove ih => exact hstep _ _ hmove ih

theorem moves_advance (s : Setup σ) (path : Text) (n : ℕ) (t : Trace σ) :
    Moves s path t (t.advance s path n) := by
  induction n generalizing t with
  | zero => exact .refl
  | succ n ih => exact .head (.step t) (ih _)

theorem ends_final (s : Setup σ) (path : Text) (t : Trace σ) : Ends s path t (t.final s path) :=
  ⟨moves_advance s path lastStep t, finished_final s path t⟩

theorem Ends.of_moves (h : Moves s path t u) (h' : Ends s path u t') : Ends s path t t' :=
  ⟨h.trans h'.1, h'.2⟩

/-! ### What was said -/

/-- A trace that has said something else. -/
def withLog (t : Trace σ) (log : List Entry) : Trace σ := { t with log := log }

/-- What was said before does not matter to a step. -/
theorem step_withLog (log : List Entry) :
    ∃ log', (t.withLog log).step s path = (t.step s path).withLog log' := by
  obtain ⟨stage, g, o, l⟩ := t
  cases stage <;> exact ⟨_, rfl⟩

theorem advance_withLog (n : ℕ) (t : Trace σ) (log : List Entry) :
    ∃ log', (t.withLog log).advance s path n = (t.advance s path n).withLog log' := by
  induction n generalizing t log with
  | zero => exact ⟨log, rfl⟩
  | succ n ih =>
    obtain ⟨log', h⟩ := step_withLog log
    rw [advance, advance, h]
    exact ih _ log'

end Trace

/-! ### Courses of a session -/

namespace Session

open Trace

variable {setup : Setup σ} {path : Text} {s : Session σ}

/-- The session that an ended trace leaves behind. -/
def left (t : Trace σ) : Session σ := ⟨t.graph, t.outside, none⟩

/-- Traces one after another, each on a course of the given kind: the session that they lead to. -/
inductive Series (course : Text → Trace σ → Trace σ → Prop) : Session σ → Session σ → Prop
  | refl (s : Session σ) : Series course s s
  | snoc {s s' : Session σ} {path : Text} {t : Trace σ} (h : Series course s s')
      (hfree : s'.busy = false) (ht : course path s'.begin t) : Series course s (left t)

theorem Series.mono {course course' : Text → Trace σ → Trace σ → Prop} {s s' : Session σ}
    (h : Series course s s') (himp : ∀ path (s : Session σ) t,
      course path s.begin t → course' path s.begin t) : Series course' s s' := by
  induction h with
  | refl => exact .refl _
  | snoc _ hfree ht ih => exact ih.snoc hfree (himp _ _ _ ht)

theorem Series.busy {course : Text → Trace σ → Trace σ → Prop} {s s' : Session σ}
    (h : Series course s s') (hfree : s.busy = false) : s'.busy = false := by
  cases h with
  | refl => exact hfree
  | snoc => rfl

/-- What was said before does not matter to how a trace goes on. -/
theorem conclude_withLog {t : Trace σ} (log : List Entry) :
    (conclude setup path (t.withLog log)).session = (conclude setup path t).session ∧
      (conclude setup path (t.withLog log)).answer = (conclude setup path t).answer := by
  have hrefused : ∃ log', (refuseMeanwhile setup (t.withLog log)).1 =
      (refuseMeanwhile setup t).1.withLog log' := by
    obtain ⟨stage, g, o, l⟩ := t
    cases stage <;> exact ⟨_, rfl⟩
  obtain ⟨log', hrefused⟩ := hrefused
  obtain ⟨log'', hended⟩ := advance_withLog lastStep (refuseMeanwhile setup t).1 log'
  change left ((refuseMeanwhile setup (t.withLog log)).1.final setup path) = left _ ∧
    answerOf path ((refuseMeanwhile setup (t.withLog log)).1.final setup path) = answerOf path _
  rw [hrefused, final, hended]
  exact ⟨rfl, rfl⟩

/-- A trace that is left running is one whose compiler runs, as it stands. -/
theorem held_hold (hfree : s.busy = false) {held : Held}
    (h : (s.hold setup path).session.held = some held) :
    let t := s.begin.advance setup path stepsToRun
    t.stage = .collecting held.before ∧ held.path = path ∧
      (s.hold setup path).session = ⟨t.graph, t.outside, some held⟩ := by
  intro t
  simp only [hold, hfree, Bool.false_eq_true, if_false] at h ⊢
  split at h
  · next before hstage =>
    obtain rfl := Option.some.inj h
    exact ⟨hstage, rfl, rfl⟩
  · cases h

/-- The response with which the trace of a file in a free session ends: that of a trace, that of a trace
in the background which did not get to run its compiler, or that of one which was left running and
waited for. -/
inductive Concludes (setup : Setup σ) (path : Text) (s : Session σ) : Response σ → Prop
  | trace : Concludes setup path s (s.trace setup path)
  | hold (h : (s.hold setup path).session.held = none) :
    Concludes setup path s (s.hold setup path)
  | release {r : Response σ} (h : (s.hold setup path).session.release setup = some r) :
    Concludes setup path s r

/-- **The trace of a file takes a course**, and is answered for its end. -/
theorem ends_of_concludes {r : Response σ} (hfree : s.busy = false) (h : Concludes setup path s r) :
    ∃ t, Ends setup path s.begin t ∧ r.session = left t ∧ r.answer = answerOf path t := by
  have hmoves := moves_advance setup path stepsToRun s.begin
  cases h with
  | trace =>
    rw [trace, hfree]
    exact ⟨_, (ends_final setup path _).of_moves (hmoves.tail (.refuse _)), rfl, rfl⟩
  | hold h =>
    simp only [hold, hfree, Bool.false_eq_true, if_false] at h ⊢
    split at h
    · cases h
    · exact ⟨_, (ends_final setup path _).of_moves (hmoves.tail (.refuse _)), rfl, rfl⟩
  | release h =>
    obtain ⟨held, hheld, rfl⟩ := Option.map_eq_some_iff.mp h
    obtain ⟨hstage, rfl, hsession⟩ := held_hold hfree hheld
    -- the trace rests where it stands, but what it has said is gone
    rw [hsession, ← hstage]
    change ∃ t, _ ∧ (conclude setup held.path (Trace.withLog _ [])).session = _ ∧
      (conclude setup held.path (Trace.withLog _ [])).answer = _
    rw [(conclude_withLog _).1, (conclude_withLog _).2]
    exact ⟨_, (ends_final setup held.path _).of_moves (hmoves.tail (.refuse _)), rfl, rfl⟩

end Session

end IncludeTrace
