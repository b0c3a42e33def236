import IncludeTrace.Proofs.Session.Service
import IncludeTrace.Session.Script
import Mathlib.Data.List.Induction

/-!
# Requests of many callers are carried out in turn

A service may be asked for anything at any time, and yet it does what a session does that is asked for
one trace after another (`Session.inTurn`). The reason is the lock. `Service.Turn` says where a service
stands: either the lock is free, and all is as the requests that were carried out in turn have left it,
or one request holds the lock, and its trace has gone some steps from there. Whatever else happens
concerns requests that do not hold the lock, and does not touch anything that a trace works on.

`Service.Orderly` adds what the books of a service say about each request, and every step preserves it
(`Service.orderly_step`). `Service.requests_in_turn` sums up what follows for all services that are
reached.
-/

namespace IncludeTrace

variable {σ : Type}

/-! ### One request after another -/

/-- The setup in which no requests come in while a compiler runs. -/
def Setup.alone (s : Setup σ) : Setup σ :=
  ⟨{ s.collaborators with requests := fun o => ([], o) }, s.view, s.marker⟩

namespace Trace

variable {s : Setup σ} {path : Text} {t : Trace σ}

/-- The calls that a trace makes in a number of steps. -/
def calls (s : Setup σ) (path : Text) : ℕ → Trace σ → List Call
  | 0, _ => []
  | n + 1, t => (t.stage.call? path).toList ++ calls s path n (t.step s path)

theorem calls_add (m n : ℕ) (t : Trace σ) :
    t.calls s path (m + n) = t.calls s path m ++ (t.advance s path m).calls s path n := by
  induction m generalizing t with
  | zero => rw [Nat.zero_add, advance, calls, List.nil_append]
  | succ m ih => rw [Nat.add_right_comm, calls, ih, calls, advance, List.append_assoc]

theorem calls_of_finished {e : Ending} (h : t.stage = .finished e) (n : ℕ) :
    t.calls s path n = [] := by
  induction n with
  | zero => rfl
  | succ n ih => rw [calls, step_of_finished h, ih, h]; rfl

/-- A trace that has ended has made all its calls. -/
theorem calls_of_finished_advance {e : Ending} {n : ℕ}
    (h : (t.advance s path n).stage = .finished e) :
    t.calls s path n = t.calls s path lastStep := by
  obtain ⟨e', he'⟩ := finished_final s path t
  calc t.calls s path n = t.calls s path (n + lastStep) := by
        rw [calls_add, calls_of_finished h, List.append_nil]
    _ = t.calls s path (lastStep + n) := by rw [Nat.add_comm]
    _ = t.calls s path lastStep := by
        rw [final] at he'
        rw [calls_add, calls_of_finished he', List.append_nil]

theorem advance_alone (n : ℕ) (t : Trace σ) : t.advance s.alone path n = t.advance s path n := by
  induction n generalizing t with
  | zero => rfl
  | succ n ih => exact ih _

end Trace

/-- What comes of requests that are carried out **in turn**: the session, the answers, and the calls
that were made for each. -/
structure Turns (σ : Type) where
  session : Session σ
  answers : List (ℕ × Answer)
  calls : List (ℕ × List Call)

/-- One more request is carried out. -/
def Turns.next (setup : Setup σ) (ts : Turns σ) (request : ℕ × Text) : Turns σ :=
  let r := ts.session.trace setup.alone request.2
  ⟨r.session, ts.answers ++ [(request.1, r.answer)],
    ts.calls ++ [(request.1, ts.session.begin.calls setup request.2 Trace.lastStep)]⟩

/-- Carries out requests in turn, each to its end before the next. -/
def Session.inTurn (setup : Setup σ) (s : Session σ) (requests : List (ℕ × Text)) : Turns σ :=
  requests.foldl (Turns.next setup) ⟨s, [], []⟩

/-- A trace of a free session, when nobody else asks for anything. -/
theorem Session.trace_alone (setup : Setup σ) (path : Text) {s : Session σ}
    (hfree : s.busy = false) :
    (s.trace setup.alone path).session = left (s.begin.final setup path) ∧
      (s.trace setup.alone path).answer = answerOf path (s.begin.final setup path) := by
  have hrefuse : ∀ t : Trace σ, (refuseMeanwhile setup.alone t).1 = t := by
    intro t
    rw [refuseMeanwhile]
    split
    · simp [Setup.alone]
    · rfl
  have hended : (refuseMeanwhile setup.alone
      (s.begin.advance setup.alone path Trace.stepsToRun)).1.final setup.alone path =
        s.begin.final setup path := by
    rw [hrefuse, Trace.final_advance, Trace.final, Trace.final, Trace.advance_alone]
  rw [trace, hfree, ← hended]
  exact ⟨rfl, rfl⟩

namespace Session

variable {setup : Setup σ} {s : Session σ} {requests : List (ℕ × Text)}

theorem inTurn_append (request : ℕ × Text) : s.inTurn setup (requests ++ [request]) =
    (s.inTurn setup requests).next setup request := by
  rw [inTurn, inTurn, List.foldl_append]
  rfl

/-- Requests in turn never meet a busy session. -/
theorem busy_inTurn (hfree : s.busy = false) (requests : List (ℕ × Text)) :
    (s.inTurn setup requests).session.busy = false := by
  induction requests using List.reverseRecOn with
  | nil => exact hfree
  | append_singleton requests request ih =>
    rw [inTurn_append, Turns.next]
    dsimp only
    rw [(trace_alone setup _ ih).1]
    rfl

theorem ids_inTurn (requests : List (ℕ × Text)) :
    (s.inTurn setup requests).calls.map Prod.fst = requests.map Prod.fst := by
  induction requests using List.reverseRecOn with
  | nil => rfl
  | append_singleton requests request ih =>
    rw [inTurn_append, Turns.next, List.map_append, List.map_append, ih]
    rfl

end Session

/-! ### Where a service stands -/

/-- Calls for several requests, those for each request behind one another. -/
def Call.blocks (calls : List (ℕ × List Call)) : List (ℕ × Call) :=
  calls.flatMap fun block => block.2.map fun c => (block.1, c)

theorem Call.blocks_concat (calls : List (ℕ × List Call)) (i : ℕ) (cs : List Call) :
    blocks (calls ++ [(i, cs)]) = blocks calls ++ cs.map fun c => (i, c) := by
  simp [blocks]

namespace Service

/-- What comes of the requests that were carried out, in turn. -/
def turns (setup : Setup σ) (graph : Graph) (outside : σ) (released : List Exit) : Turns σ :=
  (Session.new graph outside).inTurn setup (released.filterMap Exit.served?)

/-- A service **rests** where requests in turn have led to. -/
def Rests (s : Service σ) (ts : Turns σ) : Prop :=
  s.graph = ts.session.graph ∧ s.outside = ts.session.outside ∧ s.calls = Call.blocks ts.calls

/-- A service has gone **along** with a request from where requests in turn have led to: its trace has
gone some steps, or has not begun. -/
def Along (setup : Setup σ) (s : Service σ) (ts : Turns σ) (i : ℕ) (path : Text) : Phase → Prop
  | .tracing _ stage => ∃ n, let t := ts.session.begin.advance setup path n
    stage = t.stage ∧ s.graph = t.graph ∧ s.outside = t.outside ∧
      s.calls = Call.blocks (ts.calls ++ [(i, ts.session.begin.calls setup path n)])
  | _ => s.Rests ts

/-- Whose **turn** it is: the lock is free, or exactly one request holds it. -/
inductive Turn (setup : Setup σ) (graph : Graph) (outside : σ) (s : Service σ) : Prop
  | free (hlock : s.locked = false) (haccepted : s.accepted = s.released.map Exit.id)
    (hnone : ∀ t ∈ s.tickets, t.phase.holds = false)
    (hrests : s.Rests (turns setup graph outside s.released))
  | held {i : ℕ} {t : Ticket} (hlock : s.locked = true)
    (haccepted : s.accepted = s.released.map Exit.id ++ [i]) (ht : s.tickets[i]? = some t)
    (hholds : t.phase.holds = true)
    (hothers : ∀ j u, s.tickets[j]? = some u → u.phase.holds = true → j = i)
    (halong : s.Along setup (turns setup graph outside s.released) i t.path t.phase)

/-- What the books say about a request. -/
def Fits (s : Service σ) (i : ℕ) (t : Ticket) : Prop :=
  match t.phase with
  | .submitting => i ∈ s.accepted ∧ s.executor ≠ none
  | .leaving _ c => ⟨i, t.path, c⟩ ∈ s.released
  | .completed c => (i, c) ∈ s.completions ∧
    (⟨i, t.path, c⟩ ∈ s.released ∨ i ∉ s.accepted ∧ c = .busy t.path)
  | _ => i ∈ s.accepted

/-- An **orderly** service: one request at a time, and the books are right. -/
structure Orderly (setup : Setup σ) (graph : Graph) (outside : σ) (s : Service σ) : Prop where
  turn : Turn setup graph outside s
  nodup : s.accepted.Nodup
  known : ∀ i ∈ s.accepted, i < s.tickets.length
  fits : ∀ i t, s.tickets[i]? = some t → s.Fits i t
  done : ∀ i c, (i, c) ∈ s.completions → ∃ t, s.tickets[i]? = some t ∧ t.phase = .completed c
  once : (s.completions.map Prod.fst).Nodup
  answers : s.released.filterMap Exit.answer? = (turns setup graph outside s.released).answers

variable {setup : Setup σ} {graph : Graph} {outside : σ} {s s' : Service σ} {i j : ℕ}
  {t u : Ticket} {phase : Phase} {ts : Turns σ} {path : Text}

theorem orderly_new : Orderly setup graph outside (new graph outside) where
  turn := .free rfl rfl (by simp [new]) ⟨rfl, rfl, rfl⟩
  nodup := List.nodup_nil
  known := by simp [new]
  fits := by simp [new]
  done := by simp [new]
  once := List.nodup_nil
  answers := rfl

/-- A trace that has not made a step yet. -/
theorem Rests.along_reading (h : s.Rests ts) (worker : Option ℕ) :
    s.Along setup ts i path (.tracing worker .reading) := by
  refine ⟨0, rfl, h.1, h.2.1, ?_⟩
  rw [h.2.2, Call.blocks_concat]
  exact (List.append_nil _).symm

/-- **Step.** One more step of a trace. -/
theorem Along.work {worker : Option ℕ} {stage : Stage}
    (h : s.Along setup ts i path (.tracing worker stage)) :
    (s.work setup i path worker stage).Along setup ts i path
      (.tracing worker ((s.traceAt stage).step setup path).stage) := by
  obtain ⟨n, hstage, hgraph, houtside, hcalls⟩ := h
  have htrace : s.traceAt stage = (ts.session.begin.advance setup path n).withLog s.log := by
    rw [traceAt, hstage, hgraph, houtside, Trace.withLog]
  -- the log is shared with requests that are turned down, and does not matter to the step
  obtain ⟨log, hstep⟩ := Trace.step_withLog s.log
  rw [← htrace, ← Trace.advance_succ] at hstep
  refine ⟨n + 1, by rw [hstep]; rfl, ?_, ?_, ?_⟩
  · change ((s.traceAt stage).step setup path).graph = _
    rw [hstep]
    rfl
  · change ((s.traceAt stage).step setup path).outside = _
    rw [hstep]
    rfl
  · change s.calls ++ (stage.call? path).toList.map (fun c => (i, c)) = _
    rw [hcalls, Call.blocks_concat, Call.blocks_concat, Trace.calls_add, List.map_append,
      List.append_assoc, hstage]
    simp [Trace.calls]

/-- A trace that has ended has led to where one more request in turn leads. -/
theorem Along.next {worker : Option ℕ} {e : Ending} (hfree : ts.session.busy = false)
    (h : s.Along setup ts i path (.tracing worker (.finished e))) :
    s.Rests (ts.next setup (i, path)) ∧
      (ts.next setup (i, path)).answers = ts.answers ++ [(i, e.answer path)] := by
  obtain ⟨n, hstage, hgraph, houtside, hcalls⟩ := h
  obtain ⟨hsession, hanswer⟩ := Session.trace_alone setup path hfree
  have hfinal : ts.session.begin.final setup path = ts.session.begin.advance setup path n := by
    rw [← Trace.final_advance n, Trace.final_of_finished hstage.symm]
  rw [hfinal] at hsession hanswer
  rw [Turns.next]
  dsimp only
  rw [hsession, hanswer]
  refine ⟨⟨hgraph, houtside, ?_⟩, ?_⟩
  · rw [hcalls, Trace.calls_of_finished_advance hstage.symm]
  · rw [Session.answerOf, Trace.ending, ← hstage]
    cases e <;> rfl

theorem turns_refused (released : List Exit) : turns setup graph outside
    (released ++ [(⟨i, path, .refused⟩ : Exit)]) = turns setup graph outside released := by
  rw [turns, turns, List.filterMap_append]
  exact congrArg _ (List.append_nil _)

theorem turns_answered (released : List Exit) (a : Answer) : turns setup graph outside
    (released ++ [(⟨i, path, .answered a⟩ : Exit)]) =
      (turns setup graph outside released).next setup (i, path) := by
  rw [turns, turns, List.filterMap_append]
  exact Session.inTurn_append (i, path)

theorem busy_turns (released : List Exit) :
    (turns setup graph outside released).session.busy = false :=
  Session.busy_inTurn rfl _

/-! ### Books -/

/-- The books go on being right about a request that stays where it is. -/
theorem Fits.mono (h : s.Fits i t)
    (hexecutor : t.phase = .submitting → s.executor ≠ none → s'.executor ≠ none)
    (haccepted : i ∈ s'.accepted ↔ i ∈ s.accepted) (hreleased : s.released ⊆ s'.released)
    (hcompletions : s.completions ⊆ s'.completions) : s'.Fits i t := by
  rw [Fits] at h ⊢
  cases hphase : t.phase <;> rw [hphase] at h
  case submitting => exact ⟨haccepted.mpr h.1, hexecutor hphase h.2⟩
  case leaving => exact hreleased h
  case completed =>
    refine ⟨hcompletions h.1, h.2.imp (fun hmem => hreleased hmem) fun hbusy => ?_⟩
    rwa [haccepted]
  all_goals exact haccepted.mpr h

theorem getElem?_enter_of_ne (hne : j ≠ i) : (s.enter i phase).tickets[j]? = s.tickets[j]? := by
  rw [getElem?_enter, if_neg hne.symm]

/-- After one request has entered another phase, each is that request or stays where it is. -/
theorem cases_enter (ht : s.tickets[i]? = some t) (hu : (s.enter i phase).tickets[j]? = some u) :
    j = i ∧ u = { t with phase := phase } ∨ j ≠ i ∧ s.tickets[j]? = some u := by
  by_cases hne : j = i
  · subst hne
    exact .inl ⟨rfl, Option.some.inj (hu.symm.trans (getElem?_enter_self ht phase))⟩
  · exact .inr ⟨hne, (getElem?_enter_of_ne hne).symm.trans hu⟩

theorem getElem?_append_of_some {l : List Ticket} (hu : l[j]? = some u) (new : Ticket) :
    (l ++ [new])[j]? = some u :=
  (List.getElem?_append_left (List.getElem?_eq_some_iff.mp hu).1).trans hu

/-- After one more request was made, each is that request or one made before. -/
theorem cases_append {l : List Ticket} (hu : (l ++ [t])[j]? = some u) :
    j = l.length ∧ u = t ∨ j < l.length ∧ l[j]? = some u := by
  obtain hlt | rfl | hgt := Nat.lt_trichotomy j l.length
  · exact .inr ⟨hlt, (List.getElem?_append_left hlt).symm.trans hu⟩
  · exact .inl ⟨rfl, Option.some.inj (hu.symm.trans List.getElem?_concat_length)⟩
  · rw [List.getElem?_eq_none (by simp; omega)] at hu
    cases hu

/-- The completions in the books stay right when a request enters another phase. -/
theorem Orderly.done_enter (h : Orderly setup graph outside s) (ht : s.tickets[i]? = some t)
    (hne : ∀ c, t.phase ≠ .completed c) (phase : Phase) (j : ℕ) (c : Completion)
    (hc : (j, c) ∈ s.completions) :
    ∃ u, (s.enter i phase).tickets[j]? = some u ∧ u.phase = .completed c := by
  obtain ⟨u, hu, hdone⟩ := h.done j c hc
  have hji : j ≠ i := by
    rintro rfl
    obtain rfl := Option.some.inj (ht.symm.trans hu)
    exact hne c hdone
  exact ⟨u, (getElem?_enter_of_ne hji).trans hu, hdone⟩

/-- Completions stay in the books when one more request is made. -/
theorem Orderly.done_append (h : Orderly setup graph outside s) (new : Ticket) (j : ℕ)
    (c : Completion) (hc : (j, c) ∈ s.completions) :
    ∃ u, (s.tickets ++ [new])[j]? = some u ∧ u.phase = .completed c := by
  obtain ⟨u, hu, hdone⟩ := h.done j c hc
  exact ⟨u, getElem?_append_of_some hu new, hdone⟩

/-- A request that is not completed yet can be completed: it has no completion in the books. -/
theorem Orderly.once_append (h : Orderly setup graph outside s)
    (hphase : ∀ t c', s.tickets[i]? = some t → t.phase ≠ .completed c') (c : Completion) :
    ((s.completions ++ [(i, c)]).map Prod.fst).Nodup := by
  have hnew : i ∉ s.completions.map Prod.fst := by
    intro hmem
    obtain ⟨⟨_, c'⟩, hc, rfl⟩ := List.mem_map.mp hmem
    obtain ⟨t, ht, hcompleted⟩ := h.done _ _ hc
    exact hphase t c' ht hcompleted
  rw [List.map_append]
  exact h.once.append (List.nodup_singleton i) (List.disjoint_singleton.mpr hnew)

theorem Orderly.known_enter (h : Orderly setup graph outside s) (i : ℕ) (phase : Phase) (j : ℕ)
    (hj : j ∈ s.accepted) : j < (s.enter i phase).tickets.length := by
  rw [length_enter]
  exact h.known j hj

/-! ### What each step preserves -/

/-- The request that holds the lock is the one whose turn it is. -/
theorem Turn.of_holds (h : Turn setup graph outside s) (ht : s.tickets[i]? = some t)
    (hholds : t.phase.holds = true) :
    s.locked = true ∧ s.accepted = s.released.map Exit.id ++ [i] ∧
      (∀ j u, s.tickets[j]? = some u → u.phase.holds = true → j = i) ∧
      s.Along setup (turns setup graph outside s.released) i t.path t.phase := by
  cases h with
  | free hlock haccepted hnone hrests =>
    cases (hnone t (List.mem_of_getElem? ht)).symm.trans hholds
  | held hlock haccepted ht' hholds' hothers halong =>
    obtain rfl := hothers i t ht hholds
    obtain rfl := Option.some.inj (ht'.symm.trans ht)
    exact ⟨hlock, haccepted, hothers, halong⟩

/-- **A request enters another phase** while it holds the lock. -/
theorem Orderly.enter (h : Orderly setup graph outside s) (ht : s.tickets[i]? = some t)
    (hholds : t.phase.holds = true) (hholds' : phase.holds = true) (g : Graph) (o : σ)
    (log : List Entry) (executor : Option ℕ) (executors : ℕ) (calls : List (ℕ × Call))
    (hexecutor : s.executor ≠ none → executor ≠ none)
    (hphase : phase = .submitting → executor ≠ none)
    (halong : s.Along setup (turns setup graph outside s.released) i t.path t.phase →
      Along setup { s with graph := g, outside := o, calls := calls }
        (turns setup graph outside s.released) i t.path phase) :
    Orderly setup graph outside ({ s with
      graph := g
      outside := o
      log := log
      executor := executor
      executors := executors
      calls := calls }.enter i phase) := by
  obtain ⟨hlock, haccepted, hothers, hbefore⟩ := h.turn.of_holds ht hholds
  have hmem : i ∈ s.accepted := by rw [haccepted]; exact List.mem_append_right _ (.head _)
  constructor
  case turn =>
    refine .held hlock haccepted (getElem?_enter_self ht phase) hholds' ?_ (halong hbefore)
    intro j u hu hu'
    obtain ⟨rfl, -⟩ | ⟨-, hu⟩ := cases_enter ht hu
    · rfl
    · exact hothers j u hu hu'
  case nodup => exact h.nodup
  case known => exact h.known_enter i phase
  case fits =>
    intro j u hu
    obtain ⟨rfl, rfl⟩ | ⟨-, hu⟩ := cases_enter ht hu
    · cases phase <;> simp_all [Fits, Phase.holds, Service.enter]
    · exact (h.fits j u hu).mono (fun _ => hexecutor) Iff.rfl (fun _ => id) fun _ => id
  case done => exact h.done_enter ht (Phase.ne_completed_of_holds hholds) phase
  case once => exact h.once
  case answers => exact h.answers

/-- **A request gives the lock back.** -/
theorem Orderly.release (h : Orderly setup graph outside s) (ht : s.tickets[i]? = some t)
    (hholds : t.phase.holds = true) (worker : Option ℕ) (c : Completion)
    (hrests : s.Along setup (turns setup graph outside s.released) i t.path t.phase →
      let after := turns setup graph outside (s.released ++ [⟨i, t.path, c⟩])
      s.Rests after ∧
        after.answers = (s.released ++ [(⟨i, t.path, c⟩ : Exit)]).filterMap Exit.answer?) :
    Orderly setup graph outside (s.release i t.path worker c) := by
  obtain ⟨-, haccepted, hothers, halong⟩ := h.turn.of_holds ht hholds
  obtain ⟨hrests, hanswers⟩ := hrests halong
  have hids : s.accepted = (s.released ++ [(⟨i, t.path, c⟩ : Exit)]).map Exit.id := by
    rw [haccepted, List.map_append]
    rfl
  constructor
  case turn =>
    -- no other request holds the lock, so that nobody holds it now
    refine .free rfl hids (fun u hu => ?_) hrests
    obtain ⟨j, hj⟩ := List.getElem?_of_mem hu
    obtain ⟨-, rfl⟩ | ⟨hne, hj⟩ := cases_enter ht hj
    · rfl
    · by_contra hu'
      exact hne (hothers j u hj (by simpa using hu'))
  case nodup => exact h.nodup
  case known => exact h.known_enter i _
  case fits =>
    intro j u hu
    obtain ⟨rfl, rfl⟩ | ⟨-, hu⟩ := cases_enter ht hu
    · exact List.mem_append_right _ (.head _)
    · exact (h.fits j u hu).mono (fun _ => id) Iff.rfl (fun _ hx => List.mem_append_left _ hx)
        fun _ => id
  case done => exact h.done_enter ht (Phase.ne_completed_of_holds hholds) _
  case once => exact h.once
  case answers => exact hanswers.symm

/-- **A request is completed.** -/
theorem Orderly.deliver (h : Orderly setup graph outside s) {worker : Option ℕ} {c : Completion}
    (ht : s.tickets[i]? = some t) (hphase : t.phase = .leaving worker c) :
    Orderly setup graph outside (s.deliver i c) := by
  have hne : ∀ c', t.phase ≠ .completed c' := by simp [hphase]
  constructor
  case turn =>
    -- the request does not hold the lock any more, so that it stays whose turn it is
    cases h.turn with
    | free hlock haccepted hnone hrests =>
      refine .free hlock haccepted (fun u hu => ?_) hrests
      obtain ⟨j, hj⟩ := List.getElem?_of_mem hu
      obtain ⟨-, rfl⟩ | ⟨-, hj⟩ := cases_enter ht hj
      · rfl
      · exact hnone u (List.mem_of_getElem? hj)
    | @held k v hlock haccepted hv hholds hothers halong =>
      have hki : k ≠ i := by
        rintro rfl
        obtain rfl := Option.some.inj (ht.symm.trans hv)
        simp [hphase, Phase.holds] at hholds
      refine .held hlock haccepted ((getElem?_enter_of_ne hki).trans hv) hholds ?_ halong
      intro j u hu hu'
      obtain ⟨-, rfl⟩ | ⟨-, hu⟩ := cases_enter ht hu
      · cases hu'
      · exact hothers j u hu hu'
  case nodup => exact h.nodup
  case known => exact h.known_enter i _
  case fits =>
    intro j u hu
    obtain ⟨rfl, rfl⟩ | ⟨-, hu⟩ := cases_enter ht hu
    · have hleaving := h.fits j t ht
      rw [Fits, hphase] at hleaving
      exact ⟨List.mem_append_right _ (.head _), .inl hleaving⟩
    · exact (h.fits j u hu).mono (fun _ => id) Iff.rfl (fun _ => id)
        fun _ hx => List.mem_append_left _ hx
  case done =>
    intro j c' hc
    obtain hc | hc := List.mem_append.mp hc
    · exact h.done_enter ht hne _ j c' hc
    · obtain ⟨rfl, rfl⟩ := Prod.mk.inj (List.mem_singleton.mp hc)
      exact ⟨_, getElem?_enter_self ht _, rfl⟩
  case once =>
    exact h.once_append (fun u c' hu => Option.some.inj (ht.symm.trans hu) ▸ hne c') c
  case answers => exact h.answers

/-- **Another executor**, or none, is in use. -/
theorem Orderly.withExecutor (h : Orderly setup graph outside s) (executor : Option ℕ)
    (shut closers : List ℕ) (hexecutor : s.Submitting → s.executor ≠ none → executor ≠ none) :
    Orderly setup graph outside
      { s with executor := executor, shut := shut, closers := closers } where
  turn := by
    cases h.turn with
    | free hlock haccepted hnone hrests => exact .free hlock haccepted hnone hrests
    | held hlock haccepted ht hholds hothers halong =>
      exact .held hlock haccepted ht hholds hothers halong
  nodup := h.nodup
  known := h.known
  fits i t ht := (h.fits i t ht).mono
    (fun hphase => hexecutor ⟨t, List.mem_of_getElem? ht, by rw [hphase]; rfl⟩)
    Iff.rfl (fun _ => id) fun _ => id
  done := h.done
  once := h.once
  answers := h.answers

/-- **A request is turned down.** -/
theorem Orderly.turnDown (h : Orderly setup graph outside s) (hlock : s.locked = true)
    (manner : Manner) (path : Text) : Orderly setup graph outside (s.ask manner path) := by
  have hnew : s.tickets.length ∉ s.accepted := fun hmem => Nat.lt_irrefl _ (h.known _ hmem)
  rw [ask, if_pos hlock]
  constructor
  case turn =>
    cases h.turn with
    | free hfree => cases hfree.symm.trans hlock
    | held _ haccepted ht hholds hothers halong =>
      refine .held hlock haccepted (getElem?_append_of_some ht _) hholds ?_ halong
      intro j u hu hu'
      obtain ⟨-, rfl⟩ | ⟨-, hu⟩ := cases_append hu
      · cases hu'
      · exact hothers j u hu hu'
  case nodup => exact h.nodup
  case known =>
    intro j hj
    rw [List.length_append]
    exact Nat.lt_add_right _ (h.known j hj)
  case fits =>
    intro j u hu
    obtain ⟨rfl, rfl⟩ | ⟨-, hu⟩ := cases_append hu
    · exact ⟨List.mem_append_right _ (.head _), .inr ⟨hnew, rfl⟩⟩
    · exact (h.fits j u hu).mono (fun _ => id) Iff.rfl (fun _ => id)
        fun _ hx => List.mem_append_left _ hx
  case done =>
    intro j c hc
    obtain hc | hc := List.mem_append.mp hc
    · exact h.done_append _ j c hc
    · obtain ⟨rfl, rfl⟩ := Prod.mk.inj (List.mem_singleton.mp hc)
      exact ⟨_, List.getElem?_concat_length, rfl⟩
  case once => exact h.once_append (fun u c hu => by simp at hu) _
  case answers => exact h.answers

/-- **A request takes the lock.** -/
theorem Orderly.accept (h : Orderly setup graph outside s) (hlock : s.locked = false)
    (manner : Manner) (path : Text) : Orderly setup graph outside (s.ask manner path) := by
  have hnew : s.tickets.length ∉ s.accepted := fun hmem => Nat.lt_irrefl _ (h.known _ hmem)
  rw [ask, if_neg (by simp [hlock])]
  constructor
  case turn =>
    cases h.turn with
    | held hlock' => cases hlock.symm.trans hlock'
    | free _ haccepted hnone hrests =>
      -- the trace begins where the requests before it have led to
      refine .held rfl (congrArg (· ++ [_]) haccepted) List.getElem?_concat_length ?_ ?_ ?_
      · cases manner <;> rfl
      · intro j u hu hu'
        obtain ⟨hj, -⟩ | ⟨-, hu⟩ := cases_append hu
        · exact hj
        · cases (hnone u (List.mem_of_getElem? hu)).symm.trans hu'
      · cases manner with
        | direct => exact hrests.along_reading none
        | background => exact hrests
  case nodup =>
    exact h.nodup.append (List.nodup_singleton _) (List.disjoint_singleton.mpr hnew)
  case known =>
    intro j hj
    rw [List.length_append, List.length_singleton]
    obtain hj | hj := List.mem_append.mp hj
    · exact Nat.lt_add_right 1 (h.known j hj)
    · exact List.mem_singleton.mp hj ▸ Nat.lt_add_one _
  case fits =>
    intro j u hu
    obtain ⟨rfl, rfl⟩ | ⟨hlt, hu⟩ := cases_append hu
    · cases manner <;> exact List.mem_append_right _ (.head _)
    · refine (h.fits j u hu).mono (fun _ => id) ?_ (fun _ => id) fun _ => id
      simp [Nat.ne_of_lt hlt]
  case done => exact h.done_append _
  case once => exact h.once
  case answers => exact h.answers

/-- **Step.** Every step keeps a service orderly. -/
theorem orderly_step (h : Orderly setup graph outside s) (hstep : Step setup s s') :
    Orderly setup graph outside s' := by
  cases hstep with
  | prepare ht hphase =>
    rw [prepare]
    split
    · next e he =>
      exact h.enter ht (by rw [hphase]; rfl) rfl _ _ _ _ _ _ id (fun _ => by simp [he])
        (by rw [hphase]; exact id)
    · exact h.enter ht (by rw [hphase]; rfl) rfl _ _ _ _ _ _ (fun _ => by simp) (fun _ => by simp)
        (by rw [hphase]; exact id)
  | submit ht hphase =>
    exact h.enter ht (by rw [hphase]; rfl) rfl _ _ _ _ _ _ id (by simp) (by rw [hphase]; exact id)
  | refuse ht hphase =>
    exact h.enter ht (by rw [hphase]; rfl) rfl _ _ _ _ _ _ id (by simp) (by rw [hphase]; exact id)
  | start ht hphase =>
    exact h.enter ht (by rw [hphase]; rfl) rfl _ _ _ _ _ _ id (by simp)
      (by rw [hphase]; exact fun hrests => hrests.along_reading _)
  | work ht hphase hleft =>
    exact h.enter ht (by rw [hphase]; rfl) rfl _ _ _ _ _ _ id (by simp)
      (by rw [hphase]; exact fun halong => halong.work)
  | release ht hphase =>
    refine h.release ht (by rw [hphase]; rfl) _ _ fun halong => ?_
    rw [hphase] at halong
    obtain ⟨hrests, hanswers⟩ := halong.next (busy_turns s.released)
    rw [turns_answered]
    refine ⟨hrests, hanswers.trans ?_⟩
    rw [List.filterMap_append, h.answers]
    rfl
  | giveUp ht hphase =>
    refine h.release ht (by rw [hphase]; rfl) _ _ fun halong => ?_
    rw [hphase] at halong
    rw [turns_refused]
    refine ⟨halong, h.answers.symm.trans ?_⟩
    rw [List.filterMap_append]
    exact (List.append_nil _).symm
  | deliver ht hphase => exact h.deliver ht hphase
  | closed he hdrained hsubmit =>
    exact h.withExecutor none _ _ fun hsubmitting => absurd hsubmitting hsubmit

/-- **Run.** Every service that is reached is orderly. -/
theorem Reached.orderly (h : Reached setup graph outside s) : Orderly setup graph outside s := by
  induction h with
  | new => exact orderly_new
  | @ask s _ manner path ih =>
    cases hlock : s.locked with
    | true => exact ih.turnDown hlock manner path
    | false => exact ih.accept hlock manner path
  | @close s _ hsubmit ih =>
    rw [Service.close]
    split
    · exact ih.withExecutor _ _ _ fun hsubmitting => absurd hsubmitting hsubmit
    · exact ih
  | step _ hstep ih => exact orderly_step ih hstep

/-! ### What follows -/

/-- At most one request has the lock, and it has been accepted last. -/
theorem Orderly.holder (h : Orderly setup graph outside s) : ∃ holder : Option ℕ,
    s.accepted = s.released.map Exit.id ++ holder.toList ∧ s.locked = holder.isSome := by
  cases h.turn with
  | free hlock haccepted => exact ⟨none, haccepted.trans (List.append_nil _).symm, hlock⟩
  | @held i t hlock haccepted => exact ⟨some i, haccepted, hlock⟩

theorem ids_served (released : List Exit) :
    ((released.filterMap Exit.served?).map Prod.fst).Sublist (released.map Exit.id) := by
  induction released with
  | nil => exact .slnil
  | cons x released ih =>
    obtain ⟨i, path, c⟩ := x
    cases c with
    | answered a => exact ih.cons_cons i
    | refused => exact ih.cons i

/-- The calls for each request stand together, in the order in which the requests were accepted. -/
theorem Orderly.blocks (h : Orderly setup graph outside s) :
    ∃ calls, s.calls = Call.blocks calls ∧ (calls.map Prod.fst).Sublist s.accepted := by
  have hids : ((turns setup graph outside s.released).calls.map Prod.fst).Sublist
      (s.released.map Exit.id) := by
    rw [turns, Session.ids_inTurn]
    exact ids_served _
  cases h.turn with
  | free _ haccepted _ hrests => exact ⟨_, hrests.2.2, haccepted ▸ hids⟩
  | @held i t _ haccepted _ _ _ halong =>
    rw [haccepted]
    cases hphase : t.phase <;> rw [hphase] at halong
    case tracing worker stage =>
      obtain ⟨n, -, -, -, hcalls⟩ := halong
      refine ⟨_, hcalls, ?_⟩
      rw [List.map_append]
      exact hids.append (.refl _)
    all_goals exact ⟨_, halong.2.2, hids.trans (List.sublist_append_left _ _)⟩

theorem Orderly.nodup_released (h : Orderly setup graph outside s) :
    (s.released.map Exit.id).Nodup := by
  obtain ⟨holder, haccepted, -⟩ := h.holder
  exact (List.sublist_append_left _ _).nodup (haccepted ▸ h.nodup)

/-- A request that has given the lock back does not hold it. -/
theorem Orderly.holds_of_released (h : Orderly setup graph outside s) {x : Exit}
    (hx : x ∈ s.released) (ht : s.tickets[x.id]? = some t) : t.phase.holds = false := by
  by_contra hholds
  obtain ⟨-, haccepted, -⟩ := h.turn.of_holds ht (by simpa using hholds)
  have hnodup := h.nodup
  rw [haccepted] at hnodup
  exact (List.nodup_append.mp hnodup).2.2 _ (List.mem_map_of_mem hx) _ (.head _) rfl

/-- A request that has given the lock back is the request of that number. -/
theorem Orderly.ticket_of_released (h : Orderly setup graph outside s) {x : Exit}
    (hx : x ∈ s.released) : ∃ t, s.tickets[x.id]? = some t ∧ t.path = x.path := by
  obtain ⟨holder, haccepted, -⟩ := h.holder
  have hmem : x.id ∈ s.accepted := haccepted ▸ List.mem_append_left _ (List.mem_map_of_mem hx)
  obtain ⟨t, ht⟩ : ∃ t, s.tickets[x.id]? = some t :=
    ⟨_, List.getElem?_eq_getElem (h.known _ hmem)⟩
  have hholds := h.holds_of_released hx ht
  have hfits := h.fits _ t ht
  rw [Fits] at hfits
  obtain ⟨c, hc⟩ : ∃ c, (⟨x.id, t.path, c⟩ : Exit) ∈ s.released := by
    cases hphase : t.phase <;> rw [hphase] at hholds hfits
    case leaving => exact ⟨_, hfits⟩
    case completed => exact ⟨_, hfits.2.resolve_right fun hbusy => hbusy.1 hmem⟩
    all_goals cases hholds
  exact ⟨t, ht, congrArg Exit.path (List.inj_on_of_nodup_map h.nodup_released hc hx rfl)⟩

/-- A completion is that with which its request gave the lock back, or the request was turned down. -/
theorem Orderly.exit_of_completion (h : Orderly setup graph outside s) {c : Completion}
    (hc : (i, c) ∈ s.completions) : ∃ t, s.tickets[i]? = some t ∧
      (⟨i, t.path, c⟩ ∈ s.released ∨ i ∉ s.accepted ∧ c = .busy t.path) := by
  obtain ⟨t, ht, hphase⟩ := h.done i c hc
  have hfits := h.fits i t ht
  rw [Fits, hphase] at hfits
  exact ⟨t, ht, hfits.2⟩

/-- **At rest** every accepted request has given the lock back, and every request is completed once. -/
theorem Orderly.settled (h : Orderly setup graph outside s) (hrest : ∀ s', ¬ Step setup s s') :
    s.locked = false ∧ s.accepted = s.released.map Exit.id ∧ s.closers = [] ∧
      ∀ i < s.tickets.length, ∃! c, (i, c) ∈ s.completions := by
  have hexecutor : ∀ t ∈ s.tickets, t.phase = .submitting → s.executor ≠ none := by
    intro t ht hphase
    obtain ⟨i, hi⟩ := List.getElem?_of_mem ht
    have hfits := h.fits i t hi
    rw [Fits, hphase] at hfits
    exact hfits.2
  obtain ⟨hcompleted, hclosers⟩ := completed_of_settled hexecutor hrest
  have hfree : s.locked = false ∧ s.accepted = s.released.map Exit.id := by
    cases h.turn with
    | free hlock haccepted => exact ⟨hlock, haccepted⟩
    | @held i t _ _ ht hholds =>
      obtain ⟨c, hc⟩ := hcompleted t (List.mem_of_getElem? ht)
      exact absurd hc (Phase.ne_completed_of_holds hholds c)
  refine ⟨hfree.1, hfree.2, hclosers, fun i hi => ?_⟩
  have ht := List.getElem?_eq_getElem hi
  obtain ⟨c, hc⟩ := hcompleted _ (List.getElem_mem hi)
  have hfits := h.fits i _ ht
  rw [Fits, hc] at hfits
  refine ⟨c, hfits.1, fun c' hc' => ?_⟩
  exact congrArg Prod.snd (List.inj_on_of_nodup_map h.once hc' hfits.1 rfl)

/-- **Requests are carried out in turn.** In every service that is reached:

* At most one request has taken the lock and not given it back; the service is locked exactly if there
  is one. No request takes the lock twice.
* A request that is made while the service is locked is turned down at once. It makes no call, changes
  neither the graph nor what the collaborators keep, and leaves no more to do than there was.
* No request is completed twice. A request is completed as it gave the lock back, or was turned down;
  and the answers are those that the requests get in turn, in the order in which they were accepted.
* The calls for different requests do not mix. When the lock is free, the graph, what the collaborators
  keep and all calls are those of the requests in turn.
* Every step leaves less to do. When no step is possible the lock is free, every accepted request has
  given it back, and every request is completed exactly once. -/
theorem requests_in_turn (setup : Setup σ) (graph : Graph) (outside : σ) (s : Service σ)
    (h : Reached setup graph outside s) :
    let inTurn := (Session.new graph outside).inTurn setup (s.released.filterMap Exit.served?)
    (∃ holder : Option ℕ, s.accepted = s.released.map Exit.id ++ holder.toList ∧
      s.locked = holder.isSome) ∧
    s.accepted.Nodup ∧
    (s.locked = true → ∀ manner path, let s' := s.ask manner path
      s'.completions = s.completions ++ [(s.tickets.length, .busy path)] ∧ s'.calls = s.calls ∧
        s'.graph = s.graph ∧ s'.outside = s.outside ∧ s'.accepted = s.accepted ∧
        s'.rank = s.rank) ∧
    (s.completions.map Prod.fst).Nodup ∧
    (∀ i c, (i, c) ∈ s.completions → ∃ t, s.tickets[i]? = some t ∧
      (⟨i, t.path, c⟩ ∈ s.released ∨ i ∉ s.accepted ∧ c = .busy t.path)) ∧
    (∀ x ∈ s.released, ∃ t, s.tickets[x.id]? = some t ∧ t.path = x.path) ∧
    s.released.filterMap Exit.answer? = inTurn.answers ∧
    (∃ calls, s.calls = Call.blocks calls ∧ (calls.map Prod.fst).Sublist s.accepted) ∧
    (s.locked = false → s.graph = inTurn.session.graph ∧ s.outside = inTurn.session.outside ∧
      s.calls = Call.blocks inTurn.calls) ∧
    (∀ s', Step setup s s' → s'.rank < s.rank) ∧
    ((∀ s', ¬ Step setup s s') → s.locked = false ∧ s.accepted = s.released.map Exit.id ∧
      s.closers = [] ∧ ∀ i < s.tickets.length, ∃! c, (i, c) ∈ s.completions) := by
  intro inTurn
  have horderly := h.orderly
  refine ⟨horderly.holder, horderly.nodup, fun hlock manner path => ?_, horderly.once,
    fun i c hc => horderly.exit_of_completion hc, fun x hx => horderly.ticket_of_released hx,
    horderly.answers, horderly.blocks, fun hlock => ?_, fun s' hstep => rank_step hstep,
    horderly.settled⟩
  · have hrank := rank_ask_of_locked hlock manner path
    rw [ask, if_pos hlock] at hrank ⊢
    exact ⟨rfl, rfl, rfl, rfl, rfl, hrank⟩
  · cases horderly.turn with
    | free _ _ _ hrests => exact hrests
    | held hlock' => cases hlock.symm.trans hlock'

/-- A request in the background, and one that is made and turned down while it is carried out; then the
service is closed. -/
theorem requests_in_turn_background :
    let setup : Setup Script := ⟨Script.collaborators, ⟨['/'], fun _ => false⟩, ['>']⟩
    let script : Script := ⟨[(['a'], ">h".toList)], [], [], [], [], []⟩
    let answer : Answer := .result ⟨['a'], .merged ⟨1, 1, 1, 0⟩⟩
    ∃ s, Reached setup ⟨[]⟩ script s ∧
      s.completions = [(1, .busy ['b']), (0, .answered answer)] ∧
      s.graph = ((Session.new ⟨[]⟩ script).trace setup.alone ['a']).session.graph ∧
      s.graph.keys = [['/', 'a'], ['/', 'h']] := by
  intro setup script answer
  have hnew : Reached setup ⟨[]⟩ script (new ⟨[]⟩ script) := .new
  have hqueued := ((hnew.ask .background ['a']).step
    (.prepare (i := 0) (t := ⟨['a'], .preparing⟩) rfl rfl)).step
      (.submit (i := 0) (e := 0) (t := ⟨['a'], .submitting⟩) rfl rfl rfl (by decide))
  have hstarted := hqueued.step (.start (i := 0) (e := 0) (t := ⟨['a'], .queued 0⟩) rfl rfl (by
    rintro ⟨t, ht, hworker⟩
    cases List.mem_singleton.mp ht
    cases hworker))
  have hclosed := (hstarted.ask .direct ['b']).close (by
    rintro ⟨t, ht, hsubmission⟩
    obtain rfl | rfl := List.mem_pair.mp ht <;> cases hsubmission)
  have hwork : ∀ {s : Service Script} (stage : Stage), Reached setup ⟨[]⟩ script s →
      s.tickets[0]? = some ⟨['a'], .tracing (some 0) stage⟩ → stage.left ≠ 0 →
        Reached setup ⟨[]⟩ script (s.work setup 0 ['a'] (some 0) stage) :=
    fun stage h ht hleft => h.step (.work ht rfl hleft)
  have hread := hwork .reading hclosed (by decide +kernel) (by decide)
  have hon := hwork (.enabling false) hread (by decide +kernel) (by decide)
  have hrun := hwork (.starting false) hon (by decide +kernel) (by decide)
  have hcollected := hwork (.collecting false) hrun (by decide +kernel) (by decide)
  have hfound := hwork (.locating false ">h".toList) hcollected (by decide +kernel) (by decide)
  have hmerged := hwork (.merging false ">h".toList []) hfound (by decide +kernel) (by decide)
  have hended := hwork (.restoring false (.completed (.merged ⟨1, 1, 1, 0⟩))) hmerged
    (by decide +kernel) (by decide)
  have hleft := hended.step (.release (i := 0)
    (t := ⟨['a'], .tracing (some 0) (.finished (.completed (.merged ⟨1, 1, 1, 0⟩)))⟩)
    (by decide +kernel) rfl)
  have hdone := hleft.step (.deliver (i := 0)
    (t := ⟨['a'], .leaving (some 0) (.answered answer)⟩) (by decide +kernel) rfl)
  obtain ⟨-, -, -, -, -, -, -, -, hrests, -⟩ := requests_in_turn setup ⟨[]⟩ script _ hdone
  exact ⟨_, hdone, by decide +kernel, (hrests rfl).1, by decide +kernel⟩

end Service

end IncludeTrace
