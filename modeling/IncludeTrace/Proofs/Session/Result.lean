import IncludeTrace.Proofs.Session.Steps
import IncludeTrace.Proofs.Transcript.Parents
import IncludeTrace.Session.Script

/-!
# What a result says

The result of a trace tells exactly what became of the graph. To say when a trace comes to its merge,
`Collaborators.Supplies` lists the calls in front of it: they have to give the flag, switch it on, run
the compiler and give the search directories. If they do, the trace ends with what the merge says, and
the graph is what the merge left (`Session.ended_of_supplies`); if one does not, the graph is as it was
and the trace fails early (`Session.ended_of_not_supplies`). Putting the flag back comes later and
changes neither.

`Session.trace_result_exact` reads this off for collaborators that are never interrupted.
-/

namespace IncludeTrace

variable {σ : Type}

/-- Whether the calls in front of a merge all give what they are asked for, `output` and `directories`
in the end. Requests that come in while the compiler runs are taken before its output is collected. -/
def Collaborators.Supplies (c : Collaborators σ) (path : Text) (outside : σ) (output : Text)
    (directories : List Text) : Prop :=
  let flag := c.flag path outside
  let enabled := c.setFlag path true flag.state
  let started := c.start path enabled.state
  let collected := c.collect path (c.requests started.state).2
  let located := c.directories path collected.state
  (∃ before, flag.outcome = .value before) ∧ enabled.outcome = .value () ∧
    started.outcome = .value () ∧ collected.outcome = .value output ∧
    located.outcome = .value directories

theorem Collaborators.Supplies.unique {c : Collaborators σ} {path : Text} {o : σ}
    {output output' : Text} {directories directories' : List Text}
    (h : c.Supplies path o output directories) (h' : c.Supplies path o output' directories') :
    output = output' ∧ directories = directories' := by
  obtain rfl : output = output' := Outcome.value.inj (h.2.2.2.1.symm.trans h'.2.2.2.1)
  exact ⟨rfl, Outcome.value.inj (h.2.2.2.2.symm.trans h'.2.2.2.2)⟩

/-- Collaborators whose calls are never interrupted: each gives a value or fails. -/
structure Collaborators.Uninterrupted (c : Collaborators σ) : Prop where
  flag : ∀ path o, (c.flag path o).outcome ≠ .interrupted
  setFlag : ∀ path on o, (c.setFlag path on o).outcome ≠ .interrupted
  start : ∀ path o, (c.start path o).outcome ≠ .interrupted
  collect : ∀ path o, (c.collect path o).outcome ≠ .interrupted
  directories : ∀ path o, (c.directories path o).outcome ≠ .interrupted

namespace Script

theorem reply_ne_interrupted {α : Type} {call path : Text} {s : Script}
    {answer : Script → Outcome Text α × Script} (h : ∀ s, (answer s).1 ≠ .interrupted) :
    (reply call path s answer).outcome ≠ .interrupted := by
  rw [reply]
  cases (s.record call path).failures.get? call with
  | some reason => simp
  | none => exact h _

/-- A script knows failures, but no interrupts. -/
theorem uninterrupted_collaborators : collaborators.Uninterrupted where
  flag _ _ := reply_ne_interrupted (by simp)
  setFlag _ _ _ := reply_ne_interrupted (by simp)
  start _ _ := reply_ne_interrupted (by simp)
  collect path s := by
    change output path s ≠ .interrupted
    rw [output]
    split <;> simp
  directories _ _ := reply_ne_interrupted (by simp)

end Script

/-- A stage that no interrupt has led to. -/
def Stage.Uncut : Stage → Prop
  | .restoring _ e | .finished e => e ≠ .interrupted
  | _ => True

/-- A trace that **fails early** is interrupted or lacks what its merge needs. -/
def Ending.FailsEarly (e : Ending) : Prop :=
  e = .interrupted ∨ ∃ reason, e = .completed (.failed .precondition reason)

theorem Ending.Reports.failsEarly {α : Type} {o : Outcome Text α} {e : Ending} (h : e.Reports o) :
    e.FailsEarly := by
  rcases h with ⟨-, he⟩ | ⟨reason, -, he⟩
  · exact .inl he
  · exact .inr ⟨reason, he⟩

/-- It is interrupted only if the call was. -/
theorem Ending.Reports.ne_interrupted {α : Type} {o : Outcome Text α} {e : Ending}
    (h : e.Reports o) (ho : o ≠ .interrupted) : e ≠ .interrupted := by
  rcases h with ⟨hi, -⟩ | ⟨reason, -, rfl⟩
  · exact absurd hi ho
  · simp

namespace TraceResult

variable {root reason : Text} {kind : ErrorKind} {stats : Merge.Stats}

@[simp]
theorem kind?_failed : (⟨root, .failed kind reason⟩ : TraceResult).kind? = some kind := rfl

@[simp]
theorem kind?_merged : (⟨root, .merged stats⟩ : TraceResult).kind? = none := rfl

@[simp]
theorem stats?_failed : (⟨root, .failed kind reason⟩ : TraceResult).stats? = none := rfl

@[simp]
theorem stats?_merged : (⟨root, .merged stats⟩ : TraceResult).stats? = some stats := rfl

/-- Success, the kind of error, the reason and the statistics always agree. -/
theorem agrees (r : TraceResult) : (r.success = true ↔ r.kind? = none) ∧
    (r.kind? = none ↔ r.reason? = none) ∧ (r.reason? = none ↔ ∃ stats, r.stats? = some stats) := by
  obtain ⟨root, verdict⟩ := r
  cases verdict <;> simp [success, reason?]

end TraceResult

namespace Trace

variable {s : Setup σ} {path : Text} {t : Trace σ} {before : Bool} {e : Ending}

/-! ### The end of a trace, stage by stage -/

theorem ending_of_finished (h : t.stage = .finished e) : t.ending = e := by rw [ending, h]

/-- Putting the flag back ends a trace the way it was to end, unless it is interrupted. -/
theorem final_of_restoring (h : t.stage = .restoring before e) :
    (t.final s path).graph = t.graph ∧
      ((t.final s path).ending = e ∨ (t.final s path).ending = .interrupted) := by
  obtain ⟨hgraph, -, hstage⟩ := step_of_restoring s path h
  rw [← final_step, ← hgraph]
  rcases hstage with hstage | ⟨-, hstage⟩
  · rw [final_of_finished hstage]
    exact ⟨rfl, .inl (ending_of_finished hstage)⟩
  · rw [final_of_finished hstage]
    exact ⟨rfl, .inr (ending_of_finished hstage)⟩

/-- A trace is **unserved** if it leaves the graph as it is and fails early. -/
def Unserved (s : Setup σ) (path : Text) (t : Trace σ) : Prop :=
  (t.final s path).graph = t.graph ∧ (t.final s path).ending.FailsEarly

theorem unserved_of_step (hgraph : (t.step s path).graph = t.graph)
    (h : Unserved s path (t.step s path)) : Unserved s path t := by
  rwa [Unserved, final_step, hgraph] at h

theorem unserved_of_finished (h : t.stage = .finished e) (he : e.FailsEarly) :
    Unserved s path t := by
  rw [Unserved, final_of_finished h, ending_of_finished h]
  exact ⟨rfl, he⟩

theorem unserved_of_restoring (h : t.stage = .restoring before e) (he : e.FailsEarly) :
    Unserved s path t := by
  obtain ⟨hgraph, hending⟩ := final_of_restoring h
  refine ⟨hgraph, ?_⟩
  rcases hending with hending | hending
  · rwa [hending]
  · exact .inl hending

/-- A call either gives a value, with which its trace goes on, or leaves it unserved. -/
theorem IsCall.cases {α : Type} {r : Reply σ α} {next : α → Stage}
    (h : t.IsCall s path before r next) :
    (∃ a, r.outcome = .value a ∧ (t.step s path).stage = next a) ∨
      (∀ a, r.outcome ≠ .value a) ∧ Unserved s path t ∧ (t.step s path).stage.left ≤ 1 := by
  obtain ⟨hgraph, -, hvalue | ⟨e, he, hstage⟩⟩ := h
  · exact .inl hvalue
  · exact .inr ⟨he.ne_value,
      unserved_of_step hgraph (unserved_of_restoring hstage he.failsEarly), hstage ▸ Nat.le_refl 1⟩

/-! ### Without interrupts -/

/-- **Step.** Without interrupts a trace stays uncut. -/
theorem uncut_step (hc : s.collaborators.Uninterrupted) (h : t.stage.Uncut) :
    (t.step s path).stage.Uncut := by
  have hcall : ∀ {α : Type} {before : Bool} {r : Reply σ α} {next : α → Stage},
      t.IsCall s path before r next → r.outcome ≠ .interrupted → (∀ a, (next a).Uncut) →
        (t.step s path).stage.Uncut := by
    rintro α before r next ⟨-, -, ⟨a, -, ha⟩ | ⟨e, he, hstage⟩⟩ hr hnext
    · exact ha ▸ hnext a
    · exact hstage ▸ he.ne_interrupted hr
  cases hstage : t.stage with
  | reading =>
    obtain ⟨-, -, ⟨before, -, hb⟩ | ⟨e, he, hb⟩⟩ := step_of_reading s path hstage
    · exact hb ▸ trivial
    · exact hb ▸ he.ne_interrupted (hc.flag _ _)
  | enabling before =>
    exact hcall (step_of_enabling s path hstage) (hc.setFlag _ _ _) fun _ => trivial
  | starting before =>
    exact hcall (step_of_starting s path hstage) (hc.start _ _) fun _ => trivial
  | collecting before =>
    exact hcall (step_of_collecting s path hstage) (hc.collect _ _) fun _ => trivial
  | locating before output =>
    exact hcall (step_of_locating s path hstage) (hc.directories _ _) fun _ => trivial
  | merging before output directories =>
    rw [(step_of_merging s path hstage).2.2]
    simp [Stage.Uncut]
  | restoring before e =>
    obtain ⟨-, -, hb | ⟨hi, -⟩⟩ := step_of_restoring s path hstage
    · rw [hstage] at h
      exact hb ▸ h
    · exact absurd hi (hc.setFlag _ _ _)
  | finished e => rwa [step_of_finished hstage]

/-- **Run.** Without interrupts a trace is not interrupted. -/
theorem uncut_advance (hc : s.collaborators.Uninterrupted) (h : t.stage.Uncut) (n : ℕ) :
    (t.advance s path n).stage.Uncut := by
  induction n generalizing t with
  | zero => exact h
  | succ n ih => exact ih (uncut_step hc h)

theorem ending_final_ne_interrupted (hc : s.collaborators.Uninterrupted) (h : t.stage.Uncut) :
    (t.final s path).ending ≠ .interrupted := by
  obtain ⟨e, he⟩ := finished_final s path t
  have huncut : (t.final s path).stage.Uncut := uncut_advance hc h lastStep
  rw [he] at huncut
  rwa [ending_of_finished he]

end Trace

namespace Session

variable {setup : Setup σ} {path : Text} {s : Session σ}

open Trace

/-- The end of the trace that a request begins, behind the requests that it turns down. -/
def ended (setup : Setup σ) (path : Text) (s : Session σ) : Trace σ :=
  (refuseMeanwhile setup (s.begin.advance setup path stepsToRun)).1.final setup path

theorem trace_of_free (h : s.busy = false) :
    (s.trace setup path).session = ⟨(s.ended setup path).graph, (s.ended setup path).outside, none⟩ ∧
      (s.trace setup path).answer = answerOf path (s.ended setup path) := by
  rw [trace, h]
  exact ⟨rfl, rfl⟩

/-- A trace whose compiler never ran is not held up. -/
theorem ended_of_left_le (h : (s.begin.advance setup path stepsToRun).stage.left ≤ 1) :
    s.ended setup path = s.begin.final setup path := by
  rw [ended, refuseMeanwhile, isRunning_of_left_le h]
  exact final_advance _

/-- A trace either gets its compiler to run, or it ends unserved without. -/
theorem begin_cases (setup : Setup σ) (path : Text) (s : Session σ) :
    let c := setup.collaborators
    let flag := c.flag path s.outside
    let enabled := c.setFlag path true flag.state
    let started := c.start path enabled.state
    let t := s.begin.advance setup path stepsToRun
    (∃ before, flag.outcome = .value before ∧ enabled.outcome = .value () ∧
        started.outcome = .value () ∧ t.stage = .collecting before ∧ t.outside = started.state) ∨
      (∀ output directories, ¬ c.Supplies path s.outside output directories) ∧
        s.begin.Unserved setup path ∧ t.stage.left ≤ 1 := by
  intro c flag enabled started t
  obtain ⟨hgraph₁, hout₁, ⟨before, hflag, h₁⟩ | ⟨e, he, h₁⟩⟩ :=
    step_of_reading setup path (rfl : s.begin.stage = .reading)
  · have hon := step_of_enabling setup path h₁
    rw [hout₁] at hon
    obtain ⟨_, honv, h₂⟩ | ⟨honv, hun, hleft⟩ := hon.cases
    · have hrun := step_of_starting setup path h₂
      rw [hon.2.1] at hrun
      obtain ⟨_, hrunv, h₃⟩ | ⟨hrunv, hun, hleft⟩ := hrun.cases
      · exact .inl ⟨before, hflag, honv, hrunv, h₃, hrun.2.1⟩
      · exact .inr ⟨fun _ _ h => hrunv _ h.2.2.1,
          unserved_of_step hgraph₁ (unserved_of_step hon.1 hun), hleft⟩
    · exact .inr ⟨fun _ _ h => honv _ h.2.1, unserved_of_step hgraph₁ hun,
        left_advance_le hleft 1⟩
  · exact .inr ⟨fun _ _ h => h.1.elim he.ne_value,
      unserved_of_step hgraph₁ (unserved_of_finished h₁ he.failsEarly),
      left_advance_le (h₁ ▸ Nat.zero_le 1) 2⟩

/-- Once its compiler runs, a trace is held up by the requests that it turns down. -/
theorem ended_of_collecting {before : Bool} {o : σ}
    (hstage : (s.begin.advance setup path stepsToRun).stage = .collecting before)
    (hout : (s.begin.advance setup path stepsToRun).outside = o) :
    ∃ t : Trace σ, s.ended setup path = t.final setup path ∧ t.stage = .collecting before ∧
      t.graph = s.graph ∧ t.outside = (setup.collaborators.requests o).2 := by
  refine ⟨_, rfl, refuseMeanwhile_stage.trans hstage, ?_, ?_⟩
  · exact refuseMeanwhile_graph.trans (graph_advance_stepsToRun setup path s)
  · rw [refuseMeanwhile, isRunning, hstage, hout, if_pos rfl]

/-- **A trace that lacks what its merge needs** leaves the graph as it was and fails early. -/
theorem ended_of_not_supplies (h : ∀ output directories,
    ¬ setup.collaborators.Supplies path s.outside output directories) :
    (s.ended setup path).graph = s.graph ∧ (s.ended setup path).ending.FailsEarly := by
  obtain ⟨before, hflag, honv, hrunv, hstage, hout⟩ | ⟨-, hun, hleft⟩ := begin_cases setup path s
  · obtain ⟨t, hended, ht, hgraph, hoft⟩ := ended_of_collecting hstage hout
    rw [hended, ← hgraph]
    have hget := step_of_collecting setup path ht
    rw [hoft] at hget
    obtain ⟨output, hgetv, h₁⟩ | ⟨-, hun, -⟩ := hget.cases
    · have hdirs := step_of_locating setup path h₁
      rw [hget.2.1] at hdirs
      obtain ⟨directories, hdirsv, -⟩ | ⟨-, hun, -⟩ := hdirs.cases
      · exact absurd ⟨⟨before, hflag⟩, honv, hrunv, hgetv, hdirsv⟩ (h output directories)
      · exact unserved_of_step hget.1 hun
    · exact hun
  · rw [ended_of_left_le hleft]
    exact hun

/-- **A trace that has what its merge needs** leaves what the merge left, and ends as the merge says
unless putting the flag back is interrupted. -/
theorem ended_of_supplies {output : Text} {directories : List Text}
    (h : setup.collaborators.Supplies path s.outside output directories) :
    let m := s.graph.merge setup.view path directories setup.marker output
    (s.ended setup path).graph = m.graph ∧
      ((s.ended setup path).ending = .completed m.verdictOf ∨
        (s.ended setup path).ending = .interrupted) := by
  intro m
  have hgetv := h.2.2.2.1
  have hdirsv := h.2.2.2.2
  obtain ⟨before, -, -, -, hstage, hout⟩ | ⟨hnot, -⟩ := begin_cases setup path s
  · obtain ⟨t, hended, ht, hgraph, hoft⟩ := ended_of_collecting hstage hout
    have hget := step_of_collecting setup path ht
    rw [hoft] at hget
    obtain ⟨output', hgetv', h₁⟩ | ⟨hnone, -⟩ := hget.cases
    · obtain rfl : output = output' := Outcome.value.inj (hgetv.symm.trans hgetv')
      have hdirs := step_of_locating setup path h₁
      rw [hget.2.1] at hdirs
      obtain ⟨directories', hdirsv', h₂⟩ | ⟨hnone, -⟩ := hdirs.cases
      · obtain rfl : directories = directories' :=
          Outcome.value.inj (hdirsv.symm.trans hdirsv')
        obtain ⟨hmerged, -, h₃⟩ := step_of_merging setup path h₂
        rw [hdirs.1, hget.1, hgraph] at hmerged h₃
        rw [hended, ← final_step, ← final_step, ← final_step, ← hmerged]
        exact final_of_restoring h₃
      · exact absurd hdirsv (hnone directories)
    · exact absurd hgetv (hnone output)
  · exact absurd h (hnot output directories)

/-! ### The result -/

/-- Without interrupts a trace is completed with some verdict. -/
theorem ending_ended_ne_interrupted (hc : setup.collaborators.Uninterrupted) :
    (s.ended setup path).ending ≠ .interrupted := by
  refine ending_final_ne_interrupted hc ?_
  rw [refuseMeanwhile_stage]
  exact uncut_advance (t := s.begin) hc trivial stepsToRun

/-- A completed trace of a free session is answered with its verdict. -/
theorem answer_of_completed (hbusy : s.busy = false) {v : Verdict}
    (h : (s.ended setup path).ending = .completed v) :
    (s.trace setup path).answer = .result ⟨path, v⟩ ∧
      (s.trace setup path).session.graph = (s.ended setup path).graph := by
  obtain ⟨hsession, hanswer⟩ := trace_of_free hbusy
  rw [hanswer, answerOf, h, hsession]
  exact ⟨rfl, rfl⟩

/-- A trace of a free session that lacks something. -/
theorem trace_of_not_supplies (hc : setup.collaborators.Uninterrupted) (hbusy : s.busy = false)
    (h : ∀ output directories,
      ¬ setup.collaborators.Supplies path s.outside output directories) :
    (s.trace setup path).session.graph = s.graph ∧
      ∃ reason, (s.trace setup path).answer = .result ⟨path, .failed .precondition reason⟩ := by
  obtain ⟨hgraph, hending⟩ := ended_of_not_supplies h
  obtain ⟨reason, hending⟩ := hending.resolve_left (ending_ended_ne_interrupted hc)
  obtain ⟨hanswer, hafter⟩ := answer_of_completed hbusy hending
  exact ⟨hafter.trans hgraph, reason, hanswer⟩

/-- A trace of a free session that has what its merge needs. -/
theorem trace_of_supplies (hc : setup.collaborators.Uninterrupted) (hbusy : s.busy = false)
    {output : Text} {directories : List Text}
    (h : setup.collaborators.Supplies path s.outside output directories) :
    let m := s.graph.merge setup.view path directories setup.marker output
    (s.trace setup path).session.graph = m.graph ∧
      (s.trace setup path).answer = .result ⟨path, m.verdictOf⟩ := by
  obtain ⟨hgraph, hending⟩ := ended_of_supplies h
  obtain ⟨hanswer, hafter⟩ :=
    answer_of_completed hbusy (hending.resolve_right (ending_ended_ne_interrupted hc))
  exact ⟨hafter.trans hgraph, hanswer⟩

/-- **The four ways of a trace**, without interrupts: the session is busy; something is lacking; the
first trace line is nested; or the transcript is merged. -/
theorem trace_cases (path : Text) (s : Session σ) (hc : setup.collaborators.Uninterrupted) :
    let supplied := setup.collaborators.Supplies path s.outside
    let linesOf := TraceLine.ofText setup.marker
    let answer := (s.trace setup path).answer
    let after := (s.trace setup path).session.graph
    (s.busy = true ∧ answer = .result (.busy path) ∧ after = s.graph) ∨
    (s.busy = false ∧ (∀ output directories, ¬ supplied output directories) ∧
      (∃ reason, answer = .result ⟨path, .failed .precondition reason⟩) ∧ after = s.graph) ∨
    (s.busy = false ∧ ∃ output directories, supplied output directories ∧
      (∃ first rest, linesOf output = first :: rest ∧ 0 < first.depth) ∧
      (∃ reason, answer = .result ⟨path, .failed .malformed reason⟩) ∧
      after = s.graph.ensure setup.view.cwd path) ∨
    (s.busy = false ∧ ∃ output directories stats, supplied output directories ∧
      Merge.StartsDirect (linesOf output) ∧ answer = .result ⟨path, .merged stats⟩ ∧
      stats.edgesAdded = (linesOf output).length ∧ stats.traceLines = (linesOf output).length ∧
      (s.graph.keys.Nodup → after.edgeCount = s.graph.edgeCount + stats.edgesAdded)) := by
  intro supplied linesOf answer after
  cases hbusy : s.busy with
  | true =>
    have htrace : s.trace setup path = s.refuse path := by rw [trace, hbusy, if_pos rfl]
    exact .inl ⟨rfl, congrArg Response.answer htrace, congrArg (fun r => r.session.graph) htrace⟩
  | false =>
    refine .inr ?_
    by_cases hsup : ∃ output directories, supplied output directories
    · obtain ⟨output, directories, hsup⟩ := hsup
      obtain ⟨hgraph, hanswer⟩ := trace_of_supplies hc hbusy hsup
      refine .inr ?_
      by_cases hdirect : Merge.StartsDirect (linesOf output)
      · -- the merge goes through
        have hverdict : (s.graph.merge setup.view path directories setup.marker output).verdict =
            .ok _ := Graph.verdict_merge_of_startsDirect hdirect
        rw [Merge.Report.verdictOf, hverdict] at hanswer
        refine .inr ⟨rfl, output, directories, _, hsup, hdirect, hanswer, rfl, rfl, fun hn => ?_⟩
        rw [show after = _ from hgraph]
        exact Graph.edgeCount_merge_of_startsDirect hn hdirect
      · -- the first trace line is nested
        obtain ⟨first, rest, hlines, hpos⟩ := Merge.not_startsDirect_iff.mp hdirect
        obtain ⟨hroot, hverdict⟩ :=
          Graph.merge_of_nested s.graph setup.view path directories hlines hpos
        rw [Merge.Report.verdictOf, hverdict] at hanswer
        exact .inl ⟨rfl, output, directories, hsup, ⟨first, rest, hlines, hpos⟩, ⟨_, hanswer⟩,
          hgraph.trans hroot⟩
    · have hlacks : ∀ output directories, ¬ supplied output directories :=
        fun output directories h => hsup ⟨output, directories, h⟩
      obtain ⟨hgraph, hanswer⟩ := trace_of_not_supplies hc hbusy hlacks
      exact .inl ⟨rfl, hlacks, hanswer, hgraph⟩

/-- **The result of a trace tells exactly what became of the graph.**

Collaborators that are never interrupted make every trace end with a result. It says that the session
was busy exactly if it was; that something was lacking exactly if some call in front of the merge gave
no value; and that the transcript was malformed exactly if all calls gave one and the first trace line
is nested. In the first two cases the graph is as it was, in the third there is at most a new item for
the translation unit, which includes nothing. In all other cases the trace succeeds: its statistics
count the trace lines of what the compiler printed, and there are as many includes more. Success,
the kind of error, the reason and the statistics always agree. -/
theorem trace_result_exact (setup : Setup σ) (path : Text) (s : Session σ)
    (hc : setup.collaborators.Uninterrupted) :
    let supplied := setup.collaborators.Supplies path s.outside
    let linesOf := TraceLine.ofText setup.marker
    let after := (s.trace setup path).session.graph
    ∃ r : TraceResult, (s.trace setup path).answer = .result r ∧ r.root = path ∧
      (r.kind? = some .busy ↔ s.busy = true) ∧
      (r.kind? = some .precondition ↔
        s.busy = false ∧ ∀ output directories, ¬ supplied output directories) ∧
      (r.kind? = some .malformed ↔ s.busy = false ∧ ∃ output directories,
        supplied output directories ∧ ∃ first rest, linesOf output = first :: rest ∧ 0 < first.depth) ∧
      (r.kind? = some .busy ∨ r.kind? = some .precondition → after = s.graph) ∧
      (r.kind? = some .malformed → after.items = s.graph.items ∨ after.items = s.graph.items ++
        [⟨Path.key setup.view.cwd path, Path.shown setup.view.cwd path, []⟩]) ∧
      (∀ stats, r.stats? = some stats → ∃ output directories, supplied output directories ∧
        stats.edgesAdded = (linesOf output).length ∧ stats.traceLines = (linesOf output).length ∧
        (s.graph.keys.Nodup → after.edgeCount = s.graph.edgeCount + stats.edgesAdded)) ∧
      (r.success = true ↔ r.kind? = none) ∧ (r.kind? = none ↔ r.reason? = none) ∧
      (r.reason? = none ↔ ∃ stats, r.stats? = some stats) := by
  intro supplied linesOf after
  obtain ⟨hbusy, hanswer, hafter⟩ | ⟨hfree, hlacks, ⟨reason, hanswer⟩, hafter⟩ |
    ⟨hfree, output, directories, hsup, hnested, ⟨reason, hanswer⟩, hafter⟩ |
    ⟨hfree, output, directories, stats, hsup, hdirect, hanswer, hedges, hread, hgrown⟩ :=
      trace_cases path s hc
  · refine ⟨.busy path, hanswer, rfl, ?_, ?_, ?_, fun _ => hafter, ?_, ?_, TraceResult.agrees _⟩
    all_goals simp [TraceResult.busy, hbusy]
  · refine ⟨_, hanswer, rfl, by simp [hfree], iff_of_true rfl ⟨hfree, hlacks⟩, ?_, fun _ => hafter,
      by simp, by simp, TraceResult.agrees _⟩
    refine iff_of_false (by simp) ?_
    rintro ⟨-, output, directories, h, -⟩
    exact hlacks output directories h
  · have hnotall : ¬ ∀ output directories, ¬ supplied output directories :=
      fun h => h output directories hsup
    refine ⟨_, hanswer, rfl, by simp [hfree], by simp [hnotall],
      iff_of_true rfl ⟨hfree, output, directories, hsup, hnested⟩, by simp, fun _ => ?_, by simp,
      TraceResult.agrees _⟩
    rw [show after = _ from hafter, Graph.ensure]
    split
    · exact .inl rfl
    · exact .inr rfl
  · have hnotall : ¬ ∀ output directories, ¬ supplied output directories :=
      fun h => h output directories hsup
    refine ⟨_, hanswer, rfl, by simp [hfree], by simp [hnotall], iff_of_false (by simp) ?_, by simp,
      by simp, fun stats' hstats => ?_, TraceResult.agrees _⟩
    · rintro ⟨-, output', directories', hsup', hnested⟩
      obtain ⟨rfl, -⟩ := hsup'.unique hsup
      exact Merge.not_startsDirect_iff.mpr hnested hdirect
    · obtain rfl := Option.some.inj hstats
      exact ⟨output, directories, hsup, hedges, hread, hgrown⟩

/-- Putting the flag back fails, which neither the result nor the graph tells. -/
theorem trace_result_exact_unrestored :
    let setup : Setup Script := ⟨Script.collaborators, ⟨['/'], fun _ => false⟩, ['>']⟩
    let script : Script :=
      ⟨[(['a'], ">h\nnoise\n> x\n>y".toList)], [], [], [("disable", ['z'])], [['b']], []⟩
    let s := Session.new ⟨[⟨['/', 'h'], ['/', 'H'], []⟩]⟩ script
    setup.collaborators.Uninterrupted ∧
      (s.trace setup ['a']).answer = .result ⟨['a'], .merged ⟨4, 3, 3, 1⟩⟩ ∧
      (s.trace setup ['a']).session.graph.edgeCount = 3 := by
  intro setup script s
  obtain ⟨r, hr, -, -, -, -, -, -, hstats, -⟩ :=
    trace_result_exact setup ['a'] s Script.uninterrupted_collaborators
  have hanswer : (s.trace setup ['a']).answer = .result ⟨['a'], .merged ⟨4, 3, 3, 1⟩⟩ := by
    decide +kernel
  obtain rfl : r = ⟨['a'], .merged ⟨4, 3, 3, 1⟩⟩ := Answer.result.inj (hr.symm.trans hanswer)
  obtain ⟨output, directories, -, -, -, hgrown⟩ := hstats _ rfl
  exact ⟨Script.uninterrupted_collaborators, hanswer, hgrown (by decide +kernel)⟩

end Session

end IncludeTrace
