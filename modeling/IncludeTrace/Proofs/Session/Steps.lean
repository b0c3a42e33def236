import IncludeTrace.Proofs.Transcript.Independence
import IncludeTrace.Session.Basic

/-!
# The steps of a trace

Every step brings a trace nearer to its end: `Stage.left` counts the steps that are left, so that
`Trace.lastStep` steps end every trace (`Trace.finished_final`), and more steps change nothing. What a
whole trace comes to is `Trace.final`; a step does not change it (`Trace.final_step`), which lets a
trace be followed stage by stage.

Of all steps only the merge touches the graph. So the graph after some steps is what merging the
transcripts of these steps gives (`Trace.graph_advance`), and the same holds for every request to a
session (`Session.graph_perform`).
-/

namespace IncludeTrace

/-- The number of steps that are left to a trace, if none of its calls fails. -/
def Stage.left : Stage → ℕ
  | .reading => 7
  | .enabling _ => 6
  | .starting _ => 5
  | .collecting _ => 4
  | .locating _ _ => 3
  | .merging _ _ _ => 2
  | .restoring _ _ => 1
  | .finished _ => 0

/-- The transcript that a trace is about to merge. -/
def Stage.transcript? (path marker : Text) : Stage → Option Transcript
  | .merging _ output directories => some ⟨path, directories, marker, output⟩
  | _ => none

theorem Stage.left_le_lastStep (st : Stage) : st.left ≤ Trace.lastStep := by
  cases st <;> simp [Stage.left, Trace.lastStep]

theorem Stage.transcript?_eq_none {path marker : Text} {st : Stage} (h : st.left ≠ 2) :
    st.transcript? path marker = none := by
  cases st <;> simp_all [Stage.left, Stage.transcript?]

theorem Stage.left_eq_zero {st : Stage} : st.left = 0 ↔ ∃ e, st = .finished e := by
  cases st <;> simp [Stage.left]

/-- The verdict of a merge as that of its trace. -/
def Merge.Report.verdictOf (m : Merge.Report) : Verdict :=
  match m.verdict with
  | .ok stats => .merged stats
  | .error fault => .failed .malformed fault.message

/-- An ending **reports** a call that gave no value: it says that the call was interrupted, or for which
reason the merge lacks what it needs. -/
def Ending.Reports {α : Type} (o : Outcome Text α) (e : Ending) : Prop :=
  o = .interrupted ∧ e = .interrupted ∨
    ∃ reason, o = .failure reason ∧ e = .completed (.failed .precondition reason)

theorem Ending.Reports.ne_value {α : Type} {o : Outcome Text α} {e : Ending} (h : e.Reports o)
    (a : α) : o ≠ .value a := by
  rcases h with ⟨rfl, -⟩ | ⟨reason, rfl, -⟩ <;> simp

namespace Trace

variable {σ : Type} {s : Setup σ} {path : Text} {t : Trace σ}

/-! ### One step -/

/-- Reading the flag: with its value the trace goes on to switch it on, without it ends. -/
theorem step_of_reading (s : Setup σ) (path : Text) (h : t.stage = .reading) :
    let r := s.collaborators.flag path t.outside
    (t.step s path).graph = t.graph ∧ (t.step s path).outside = r.state ∧
      ((∃ before, r.outcome = .value before ∧ (t.step s path).stage = .enabling before) ∨
        ∃ e, e.Reports r.outcome ∧ (t.step s path).stage = .finished e) := by
  intro r
  rw [step, h]
  refine ⟨rfl, rfl, ?_⟩
  cases hr : r.outcome with
  | value before => exact .inl ⟨before, rfl, by simp [reply, r, hr]⟩
  | failure reason => exact .inr ⟨_, .inr ⟨reason, rfl, rfl⟩, by simp [reply, r, hr]⟩
  | interrupted => exact .inr ⟨_, .inl ⟨rfl, rfl⟩, by simp [reply, r, hr]⟩

/-- A step is a **call** if the trace goes on with the value that the call gives, and goes to put the
flag back if it gives none. -/
def IsCall {α : Type} (s : Setup σ) (path : Text) (t : Trace σ) (before : Bool) (r : Reply σ α)
    (next : α → Stage) : Prop :=
  (t.step s path).graph = t.graph ∧ (t.step s path).outside = r.state ∧
    ((∃ a, r.outcome = .value a ∧ (t.step s path).stage = next a) ∨
      ∃ e, e.Reports r.outcome ∧ (t.step s path).stage = .restoring before e)

theorem isCall_of_step {α : Type} {before : Bool} {r : Reply σ α} {next : α → Stage}
    (h : t.step s path = t.reply r (proceed path before next r.outcome)) :
    t.IsCall s path before r next := by
  rw [IsCall, h]
  refine ⟨rfl, rfl, ?_⟩
  cases hr : r.outcome with
  | value a => exact .inl ⟨a, rfl, rfl⟩
  | failure reason => exact .inr ⟨_, .inr ⟨reason, rfl, rfl⟩, rfl⟩
  | interrupted => exact .inr ⟨_, .inl ⟨rfl, rfl⟩, rfl⟩

theorem step_of_enabling (s : Setup σ) (path : Text) {before : Bool}
    (h : t.stage = .enabling before) :
    t.IsCall s path before (s.collaborators.setFlag path true t.outside)
      fun _ => .starting before :=
  isCall_of_step (by rw [step, h])

theorem step_of_starting (s : Setup σ) (path : Text) {before : Bool}
    (h : t.stage = .starting before) :
    t.IsCall s path before (s.collaborators.start path t.outside) fun _ => .collecting before :=
  isCall_of_step (by rw [step, h])

theorem step_of_collecting (s : Setup σ) (path : Text) {before : Bool}
    (h : t.stage = .collecting before) :
    t.IsCall s path before (s.collaborators.collect path t.outside) (.locating before) :=
  isCall_of_step (by rw [step, h])

theorem step_of_locating (s : Setup σ) (path : Text) {before : Bool} {output : Text}
    (h : t.stage = .locating before output) :
    t.IsCall s path before (s.collaborators.directories path t.outside) (.merging before output) :=
  isCall_of_step (by rw [step, h])

/-- Merging: the trace is to end as the merge says. -/
theorem step_of_merging (s : Setup σ) (path : Text) {before : Bool} {output : Text}
    {directories : List Text} (h : t.stage = .merging before output directories) :
    let m := t.graph.merge s.view path directories s.marker output
    (t.step s path).graph = m.graph ∧ (t.step s path).outside = t.outside ∧
      (t.step s path).stage = .restoring before (.completed m.verdictOf) := by
  intro m
  rw [step, h]
  refine ⟨rfl, rfl, ?_⟩
  cases hm : m.verdict <;> simp only [m] at hm <;> simp only [Merge.Report.verdictOf, m, hm]

/-- Putting the flag back: the trace ends the way it was to end, unless this call is interrupted. -/
theorem step_of_restoring (s : Setup σ) (path : Text) {before : Bool} {e : Ending}
    (h : t.stage = .restoring before e) :
    let r := s.collaborators.setFlag path before t.outside
    (t.step s path).graph = t.graph ∧ (t.step s path).outside = r.state ∧
      ((t.step s path).stage = .finished e ∨
        r.outcome = .interrupted ∧ (t.step s path).stage = .finished .interrupted) := by
  intro r
  rw [step, h]
  refine ⟨rfl, rfl, ?_⟩
  cases hr : r.outcome with
  | value a => exact .inl (by simp [reply, r, hr])
  | failure reason => exact .inl (by simp [reply, r, hr])
  | interrupted => exact .inr ⟨rfl, by simp [reply, r, hr]⟩

theorem step_of_finished {e : Ending} (h : t.stage = .finished e) : t.step s path = t := by
  rw [step, h]

/-! ### Going on to the end -/

/-- **Step.** Every step uses up one of the steps that are left, or goes on to the flag and the end. -/
theorem left_step (s : Setup σ) (path : Text) (t : Trace σ) :
    (t.step s path).stage.left = t.stage.left - 1 ∨
      (t.step s path).stage.left ≤ min 1 (t.stage.left - 1) := by
  have hcall : ∀ {α : Type} {before : Bool} {r : Reply σ α} {next : α → Stage},
      t.IsCall s path before r next → (∀ a, (next a).left = t.stage.left - 1) →
        2 ≤ t.stage.left → (t.step s path).stage.left = t.stage.left - 1 ∨
          (t.step s path).stage.left ≤ min 1 (t.stage.left - 1) := by
    rintro α before r next ⟨-, -, ⟨a, -, ha⟩ | ⟨e, -, he⟩⟩ hnext hleft
    · exact .inl (by rw [ha, hnext])
    · exact .inr (by rw [he, Stage.left]; omega)
  cases h : t.stage with
  | reading =>
    obtain ⟨-, -, ⟨before, -, hb⟩ | ⟨e, -, he⟩⟩ := step_of_reading s path h
    · exact .inl (by rw [hb]; rfl)
    · exact .inr (by rw [he]; exact Nat.zero_le _)
  | enabling before =>
    exact h ▸ hcall (step_of_enabling s path h) (fun _ => h ▸ rfl) (h ▸ Nat.le_of_ble_eq_true rfl)
  | starting before =>
    exact h ▸ hcall (step_of_starting s path h) (fun _ => h ▸ rfl) (h ▸ Nat.le_of_ble_eq_true rfl)
  | collecting before =>
    exact h ▸ hcall (step_of_collecting s path h) (fun _ => h ▸ rfl) (h ▸ Nat.le_of_ble_eq_true rfl)
  | locating before output =>
    exact h ▸ hcall (step_of_locating s path h) (fun _ => h ▸ rfl) (h ▸ Nat.le_of_ble_eq_true rfl)
  | merging before output directories =>
    obtain ⟨-, -, hstage⟩ := step_of_merging s path h
    exact .inl (by rw [hstage]; rfl)
  | restoring before e =>
    obtain ⟨-, -, hstage | ⟨-, hstage⟩⟩ := step_of_restoring s path h
    · exact .inl (by rw [hstage]; rfl)
    · exact .inl (by rw [hstage]; rfl)
  | finished e =>
    rw [step_of_finished h, h]
    exact .inl rfl

theorem advance_of_finished {e : Ending} (h : t.stage = .finished e) (n : ℕ) :
    t.advance s path n = t := by
  induction n with
  | zero => rfl
  | succ n ih => rw [advance, step_of_finished h, ih]

theorem advance_add (m n : ℕ) (t : Trace σ) :
    t.advance s path (m + n) = (t.advance s path m).advance s path n := by
  induction m generalizing t with
  | zero => rw [Nat.zero_add, advance]
  | succ m ih => rw [Nat.add_right_comm, advance, ih, advance]

theorem advance_succ (n : ℕ) (t : Trace σ) :
    t.advance s path (n + 1) = (t.advance s path n).step s path := by
  rw [advance_add, advance, advance]

/-- **Run.** A trace has ended after as many steps as were left to it. -/
theorem finished_advance {n : ℕ} (h : t.stage.left ≤ n) :
    ∃ e, (t.advance s path n).stage = .finished e := by
  induction n generalizing t with
  | zero => exact Stage.left_eq_zero.mp (Nat.le_zero.mp h)
  | succ n ih =>
    have hleft := left_step s path t
    exact ih (by omega)

/-- A trace that only has the flag to put back, or has ended, goes no other way. -/
theorem left_advance_le (h : t.stage.left ≤ 1) (n : ℕ) : (t.advance s path n).stage.left ≤ 1 := by
  induction n generalizing t with
  | zero => exact h
  | succ n ih =>
    have hleft := left_step s path t
    exact ih (by omega)

theorem isRunning_of_left_le (h : t.stage.left ≤ 1) : t.isRunning = false := by
  rw [isRunning]
  split
  · next hstage => simp [hstage, Stage.left] at h
  · rfl

/-- The end of a trace. -/
def final (s : Setup σ) (path : Text) (t : Trace σ) : Trace σ := t.advance s path lastStep

theorem finished_final (s : Setup σ) (path : Text) (t : Trace σ) :
    ∃ e, (t.final s path).stage = .finished e :=
  finished_advance t.stage.left_le_lastStep

theorem final_of_finished {e : Ending} (h : t.stage = .finished e) : t.final s path = t :=
  advance_of_finished h lastStep

/-- A step does not change what a trace comes to. -/
theorem final_step : (t.step s path).final s path = t.final s path := by
  obtain ⟨e, he⟩ := finished_final s path t
  calc (t.step s path).final s path = t.advance s path (lastStep + 1) := by rw [final, advance]
    _ = (t.final s path).step s path := by rw [advance_succ, final]
    _ = t.final s path := step_of_finished he

theorem final_advance (n : ℕ) : (t.advance s path n).final s path = t.final s path := by
  induction n generalizing t with
  | zero => rfl
  | succ n ih => rw [advance, ih, final_step]

/-! ### What becomes of the graph -/

/-- The transcripts that a trace merges in a number of steps. -/
def transcripts (s : Setup σ) (path : Text) : ℕ → Trace σ → List Transcript
  | 0, _ => []
  | n + 1, t =>
    (t.stage.transcript? path s.marker).toList ++ transcripts s path n (t.step s path)

/-- **Step.** A step merges the transcript that its trace is about to merge, and otherwise leaves the
graph alone. -/
theorem graph_step : (t.step s path).graph =
    (t.graph.extendAll s.view (t.stage.transcript? path s.marker).toList).1 := by
  obtain ⟨stage, g, o, log⟩ := t
  cases stage with
  | merging before output directories =>
    simp only [step, Stage.transcript?, Option.toList_some, Graph.extendAll, Graph.extend_eq_merge.1]
  | _ => rfl

/-- **Run.** The graph after some steps is what merging their transcripts gives. -/
theorem graph_advance (n : ℕ) (t : Trace σ) : (t.advance s path n).graph =
    (t.graph.extendAll s.view (t.transcripts s path n)).1 := by
  induction n generalizing t with
  | zero => rfl
  | succ n ih => rw [advance, ih, graph_step, transcripts, Graph.extendAll_append]

/-- A trace that still has far to go, or has only the flag to put back, merges nothing for now. -/
theorem transcripts_eq_nil {n : ℕ} (h : n + 2 ≤ t.stage.left ∨ t.stage.left ≤ 1) :
    t.transcripts s path n = [] := by
  induction n generalizing t with
  | zero => rfl
  | succ n ih =>
    have hleft := left_step s path t
    rw [transcripts, Stage.transcript?_eq_none (by omega), ih (by omega)]
    rfl

end Trace

/-- A request to a session. -/
inductive Request
  | trace (path : Text)
  | hold (path : Text)
  | release
  | close
  deriving DecidableEq

namespace Session

variable {σ : Type} {setup : Setup σ} {path : Text} {s : Session σ} {t : Trace σ}

/-- The session after a request. -/
def perform (setup : Setup σ) (s : Session σ) : Request → Session σ
  | .trace path => (s.trace setup path).session
  | .hold path => (s.hold setup path).session
  | .release =>
    match s.release setup with
    | some r => r.session
    | none => s
  | .close => (s.close setup).1

/-- The transcripts that a trace merges on its way to the end, behind the requests that it turns
down. -/
def concluded (setup : Setup σ) (path : Text) (t : Trace σ) : List Transcript :=
  (refuseMeanwhile setup t).1.transcripts setup path Trace.lastStep

/-- The transcripts that are merged while a request is carried out. -/
def transcripts (setup : Setup σ) (s : Session σ) : Request → List Transcript
  | .trace path =>
    if s.busy then [] else concluded setup path (s.begin.advance setup path Trace.stepsToRun)
  | .hold path =>
    let t := s.begin.advance setup path Trace.stepsToRun
    if s.busy || t.isRunning then [] else concluded setup path t
  | .release | .close =>
    match s.held with
    | some held => concluded setup held.path ⟨.collecting held.before, s.graph, s.outside, []⟩
    | none => []

/-- Turning requests down leaves the graph and the stage as they are. -/
theorem refuseMeanwhile_graph : (refuseMeanwhile setup t).1.graph = t.graph := by
  rw [refuseMeanwhile]
  split <;> rfl

theorem refuseMeanwhile_stage : (refuseMeanwhile setup t).1.stage = t.stage := by
  rw [refuseMeanwhile]
  split <;> rfl

theorem graph_conclude : (conclude setup path t).session.graph =
    (t.graph.extendAll setup.view (concluded setup path t)).1 := by
  change ((refuseMeanwhile setup t).1.advance setup path Trace.lastStep).graph = _
  rw [Trace.graph_advance, refuseMeanwhile_graph, concluded]

/-- Up to the run of its compiler a trace merges nothing. -/
theorem graph_advance_stepsToRun (setup : Setup σ) (path : Text) (s : Session σ) :
    (s.begin.advance setup path Trace.stepsToRun).graph = s.graph := by
  rw [Trace.graph_advance, Trace.transcripts_eq_nil (by simp [begin, Stage.left, Trace.stepsToRun])]
  rfl

theorem graph_release : (s.perform setup .release).graph =
    (s.graph.extendAll setup.view (s.transcripts setup .release)).1 := by
  rw [perform, release, transcripts]
  cases s.held with
  | none => rfl
  | some held => exact graph_conclude

/-- Closing a session is waiting for its trace without asking for the result. -/
theorem perform_close : s.perform setup .close = s.perform setup .release := by
  simp only [perform, close]
  cases s.release setup <;> rfl

/-- **A request merges its transcripts**, and does nothing else to the graph. -/
theorem graph_perform (r : Request) : (s.perform setup r).graph =
    (s.graph.extendAll setup.view (s.transcripts setup r)).1 := by
  cases r with
  | trace path =>
    rw [perform, trace, transcripts]
    split
    · rfl
    · rw [graph_conclude, graph_advance_stepsToRun]
  | hold path =>
    have hgraph := graph_advance_stepsToRun setup path s
    rw [perform, hold, transcripts]
    generalize s.begin.advance setup path Trace.stepsToRun = t at hgraph ⊢
    cases s.busy with
    | true => rfl
    | false =>
      simp only [Bool.false_eq_true, if_false, Bool.false_or]
      rw [← hgraph]
      -- a trace whose compiler runs is left there, any other one goes on to its end
      split
      · next before hstage => simp only [Trace.isRunning, hstage, if_true, Graph.extendAll]
      · next hstage =>
        have hrunning : t.isRunning = false := by
          cases h : t.stage <;> simp_all [Trace.isRunning]
        rw [graph_conclude, hrunning, if_neg (by simp)]
  | release => exact graph_release
  | close =>
    rw [perform_close]
    exact graph_release

end Session

end IncludeTrace
