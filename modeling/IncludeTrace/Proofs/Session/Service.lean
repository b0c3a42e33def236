import IncludeTrace.Proofs.Session.Course

/-!
# Requests from many callers

A **service** is a session that many callers share. `Session` knows one caller at a time; a service
knows all requests that were ever made, and each stands at a **phase** of its own. A request takes the
lock or is turned down at once. If it is made directly, its caller carries out the trace. If it is made
for the background, its caller hands it to an executor, which may refuse it, and the one worker of this
executor carries out the trace; then the answer is delivered.

Steps take requests from phase to phase, and those of different requests come in any order
(`Service.Step`). Callers may make requests at any time, and close the session at any time except while
a request is being handed over (`Service.Reached`).

Steps bring a service nearer to rest: `Service.rank` counts what is left to do (`Service.rank_step`).
-/

namespace IncludeTrace

variable {σ : Type}

/-! ### Phases of a request -/

/-- Whether the trace of a request is carried out by its caller or in the background. -/
inductive Manner
  | direct
  | background
  deriving DecidableEq

/-- How a request is completed: by an answer, or because it could not be handed over. -/
inductive Completion
  | answered (a : Answer)
  | refused
  deriving DecidableEq

/-- The completion of a request that is turned down. -/
def Completion.busy (path : Text) : Completion := .answered (.result (.busy path))

/-- The answer that a trace gives when it ends. -/
def Ending.answer (path : Text) : Ending → Answer
  | .completed v => .result ⟨path, v⟩
  | .interrupted => .interrupted

/-- Where a request stands. The worker is that of an executor, or none if the caller does the work. -/
inductive Phase
  | preparing
  | submitting
  | refused
  | queued (executor : ℕ)
  | tracing (worker : Option ℕ) (stage : Stage)
  | leaving (worker : Option ℕ) (c : Completion)
  | completed (c : Completion)
  deriving DecidableEq

namespace Phase

/-- Whether a request holds the lock. -/
def holds : Phase → Bool
  | .leaving _ _ | .completed _ => false
  | _ => true

/-- Whether a request is being handed over. -/
def isSubmission : Phase → Bool
  | .preparing | .submitting => true
  | _ => false

/-- The executor whose worker is at a request. -/
def worker? : Phase → Option ℕ
  | .tracing worker _ | .leaving worker _ => worker
  | _ => none

/-- The executor that a request waits for or that is at it. -/
def executor? : Phase → Option ℕ
  | .queued e => some e
  | phase => phase.worker?

/-- The steps that are left to a request. -/
def rank : Phase → ℕ
  | .preparing => 12
  | .submitting => 11
  | .queued _ => 10
  | .tracing _ stage => stage.left + 2
  | .refused => 2
  | .leaving _ _ => 1
  | .completed _ => 0

theorem ne_completed_of_holds {phase : Phase} (h : phase.holds = true) (c : Completion) :
    phase ≠ .completed c := by
  rintro rfl
  cases h

end Phase

/-- Where a request stands that was just made and took the lock. -/
def Manner.phase : Manner → Phase
  | .direct => .tracing none .reading
  | .background => .preparing

/-- A request: its file, and where it stands. -/
structure Ticket where
  path : Text
  phase : Phase
  deriving DecidableEq

/-- The release of the lock by a request, with the completion that it goes on to. -/
structure Exit where
  id : ℕ
  path : Text
  completion : Completion
  deriving DecidableEq

/-- The request and its file, unless it could not be handed over. -/
def Exit.served? (x : Exit) : Option (ℕ × Text) :=
  match x.completion with
  | .answered _ => some (x.id, x.path)
  | .refused => none

/-- The request and its answer, unless it could not be handed over. -/
def Exit.answer? (x : Exit) : Option (ℕ × Answer) :=
  match x.completion with
  | .answered a => some (x.id, a)
  | .refused => none

/-! ### Services -/

/-- A **service**. Requests are numbered in the order in which they were made, executors in the order
in which they were started; `executor` is the one in use. The last four fields are books that only grow:
they say which requests took the lock and gave it back, which calls were made for which request, and how
requests were completed. -/
structure Service (σ : Type) where
  locked : Bool
  graph : Graph
  outside : σ
  log : List Entry
  tickets : List Ticket
  executor : Option ℕ
  executors : ℕ
  shut : List ℕ
  closers : List ℕ
  accepted : List ℕ
  released : List Exit
  calls : List (ℕ × Call)
  completions : List (ℕ × Completion)

namespace Service

/-- A service that nobody has asked for anything. -/
def new (graph : Graph) (outside : σ) : Service σ :=
  ⟨false, graph, outside, [], [], none, 0, [], [], [], [], [], []⟩

/-- The service with a request in a new phase. -/
def enter (s : Service σ) (i : ℕ) (phase : Phase) : Service σ :=
  { s with tickets := s.tickets.modify i fun t => { t with phase := phase } }

/-- Whether a request is being handed over. -/
def Submitting (s : Service σ) : Prop := ∃ t ∈ s.tickets, t.phase.isSubmission = true

/-- Whether the worker of an executor is at some request. -/
def Working (s : Service σ) (e : ℕ) : Prop := ∃ t ∈ s.tickets, t.phase.worker? = some e

/-- Whether an executor has nothing to do any more. -/
def Drained (s : Service σ) (e : ℕ) : Prop := ∀ t ∈ s.tickets, t.phase.executor? ≠ some e

/-- A request is **made**. It is turned down if the lock is taken. -/
def ask (s : Service σ) (manner : Manner) (path : Text) : Service σ :=
  let i := s.tickets.length
  if s.locked then
    { s with
      log := s.log ++ [Session.busyEntry path]
      tickets := s.tickets ++ [⟨path, .completed (.busy path)⟩]
      completions := s.completions ++ [(i, .busy path)] }
  else
    { s with
      locked := true
      tickets := s.tickets ++ [⟨path, manner.phase⟩]
      accepted := s.accepted ++ [i] }

/-- The service is **closed**: the executor in use takes no more requests, and the caller waits for
it. -/
def close (s : Service σ) : Service σ :=
  match s.executor with
  | some e => { s with shut := e :: s.shut, closers := e :: s.closers }
  | none => s

/-- A caller that waits for an executor returns, and no executor is in use any more. -/
def closed (s : Service σ) (e : ℕ) : Service σ :=
  { s with executor := none, closers := s.closers.erase e }

/-- An executor is in use; if there is none, one is started. -/
def prepare (s : Service σ) : Service σ :=
  match s.executor with
  | some _ => s
  | none => { s with executor := some s.executors, executors := s.executors + 1 }

/-- The trace of a request at a stage. -/
def traceAt (s : Service σ) (stage : Stage) : Trace σ := ⟨stage, s.graph, s.outside, s.log⟩

/-- A step of the trace of a request. -/
def work (setup : Setup σ) (s : Service σ) (i : ℕ) (path : Text) (worker : Option ℕ)
    (stage : Stage) : Service σ :=
  let t := (s.traceAt stage).step setup path
  { s with
    graph := t.graph
    outside := t.outside
    log := t.log
    calls := s.calls ++ (stage.call? path).toList.map fun c => (i, c) }.enter i
      (.tracing worker t.stage)

/-- A request gives the lock back. -/
def release (s : Service σ) (i : ℕ) (path : Text) (worker : Option ℕ) (c : Completion) :
    Service σ :=
  { s with
    locked := false
    released := s.released ++ [(⟨i, path, c⟩ : Exit)] }.enter i (.leaving worker c)

/-- A request is completed. -/
def deliver (s : Service σ) (i : ℕ) (c : Completion) : Service σ :=
  { s with completions := s.completions ++ [(i, c)] }.enter i (.completed c)

/-- A **step** of a service. An executor that was shut down refuses every request, and others may refuse
one. A worker begins with a request when it is done with all others. -/
inductive Step (setup : Setup σ) (s : Service σ) : Service σ → Prop
  | prepare {i : ℕ} {t : Ticket} (ht : s.tickets[i]? = some t) (hphase : t.phase = .preparing) :
    Step setup s (s.prepare.enter i .submitting)
  | submit {i e : ℕ} {t : Ticket} (ht : s.tickets[i]? = some t) (hphase : t.phase = .submitting)
    (he : s.executor = some e) (hopen : e ∉ s.shut) : Step setup s (s.enter i (.queued e))
  | refuse {i e : ℕ} {t : Ticket} (ht : s.tickets[i]? = some t) (hphase : t.phase = .submitting)
    (he : s.executor = some e) : Step setup s (s.enter i .refused)
  | start {i e : ℕ} {t : Ticket} (ht : s.tickets[i]? = some t) (hphase : t.phase = .queued e)
    (hfree : ¬ s.Working e) : Step setup s (s.enter i (.tracing (some e) .reading))
  | work {i : ℕ} {t : Ticket} {worker : Option ℕ} {stage : Stage} (ht : s.tickets[i]? = some t)
    (hphase : t.phase = .tracing worker stage) (hleft : stage.left ≠ 0) :
    Step setup s (s.work setup i t.path worker stage)
  | release {i : ℕ} {t : Ticket} {worker : Option ℕ} {e : Ending} (ht : s.tickets[i]? = some t)
    (hphase : t.phase = .tracing worker (.finished e)) :
    Step setup s (s.release i t.path worker (.answered (e.answer t.path)))
  | giveUp {i : ℕ} {t : Ticket} (ht : s.tickets[i]? = some t) (hphase : t.phase = .refused) :
    Step setup s (s.release i t.path none .refused)
  | deliver {i : ℕ} {t : Ticket} {worker : Option ℕ} {c : Completion}
    (ht : s.tickets[i]? = some t) (hphase : t.phase = .leaving worker c) :
    Step setup s (s.deliver i c)
  | closed {e : ℕ} (he : e ∈ s.closers) (hdrained : s.Drained e) (hsubmit : ¬ s.Submitting) :
    Step setup s (s.closed e)

/-- The services that are **reached** from a new one, with any requests made and any steps taken in any
order. A service is not closed while a request is being handed over. -/
inductive Reached (setup : Setup σ) (graph : Graph) (outside : σ) : Service σ → Prop
  | new : Reached setup graph outside (.new graph outside)
  | ask {s : Service σ} (h : Reached setup graph outside s) (manner : Manner) (path : Text) :
    Reached setup graph outside (s.ask manner path)
  | close {s : Service σ} (h : Reached setup graph outside s) (hsubmit : ¬ s.Submitting) :
    Reached setup graph outside s.close
  | step {s s' : Service σ} (h : Reached setup graph outside s) (hstep : Step setup s s') :
    Reached setup graph outside s'

/-! ### What is left to do -/

/-- The steps that are left to a service. -/
def rank (s : Service σ) : ℕ := s.tickets.foldr (fun t n => t.phase.rank + n) s.closers.length

variable {setup : Setup σ} {s s' : Service σ} {i : ℕ} {t : Ticket} {phase : Phase}

theorem getElem?_enter (s : Service σ) (i j : ℕ) (phase : Phase) : (s.enter i phase).tickets[j]? =
    if i = j then s.tickets[j]?.map fun t => { t with phase := phase } else s.tickets[j]? := by
  rw [enter, List.getElem?_modify]
  split <;> simp_all

theorem getElem?_enter_self (ht : s.tickets[i]? = some t) (phase : Phase) :
    (s.enter i phase).tickets[i]? = some { t with phase := phase } := by
  rw [getElem?_enter, if_pos rfl, ht]
  rfl

@[simp]
theorem length_enter : (s.enter i phase).tickets.length = s.tickets.length := by
  simp [enter]

theorem foldr_add_eq {α : Type} (l : List α) (g : α → ℕ) (n : ℕ) :
    l.foldr (fun x m => g x + m) n = l.foldr (fun x m => g x + m) 0 + n := by
  induction l with
  | nil => exact (Nat.zero_add n).symm
  | cons a l ih => rw [List.foldr_cons, List.foldr_cons, ih, Nat.add_assoc]

theorem foldr_add_modify {α : Type} {l : List α} {i : ℕ} {a : α} (h : l[i]? = some a) (f : α → α)
    (g : α → ℕ) (n : ℕ) : (l.modify i f).foldr (fun x m => g x + m) n + g a =
      l.foldr (fun x m => g x + m) n + g (f a) := by
  induction l generalizing i with
  | nil => simp at h
  | cons b l ih =>
    cases i with
    | zero =>
      obtain rfl : b = a := by simpa using h
      simp only [List.modify_zero_cons, List.foldr_cons]
      omega
    | succ i =>
      have hrest := ih (by simpa using h)
      simp only [List.modify_succ_cons, List.foldr_cons]
      omega

/-- A request that enters a phase with less left to do brings its service nearer to rest. -/
theorem rank_enter_lt {u : Service σ} (ht : s.tickets[i]? = some t)
    (hlt : phase.rank < t.phase.rank) (htickets : u.tickets = s.tickets)
    (hclosers : u.closers = s.closers) : (u.enter i phase).rank < s.rank := by
  have hsum := foldr_add_modify ht (fun t => { t with phase := phase }) (fun t => t.phase.rank)
    s.closers.length
  simp only [rank, enter, htickets, hclosers] at hsum ⊢
  omega

/-- A request that is turned down leaves no more to do than there was. -/
theorem rank_ask_of_locked (hlock : s.locked = true) (manner : Manner) (path : Text) :
    (s.ask manner path).rank = s.rank := by
  rw [ask, if_pos hlock, rank, rank, List.foldr_append]
  exact congrArg (s.tickets.foldr _) (Nat.zero_add _)

theorem prepare_tickets : s.prepare.tickets = s.tickets := by
  rw [prepare]
  split <;> rfl

theorem prepare_closers : s.prepare.closers = s.closers := by
  rw [prepare]
  split <;> rfl

/-- **Step.** Every step brings a service nearer to rest. -/
theorem rank_step (h : Step setup s s') : s'.rank < s.rank := by
  cases h with
  | prepare ht hphase =>
    exact rank_enter_lt ht (by simp [hphase, Phase.rank]) prepare_tickets prepare_closers
  | submit ht hphase => exact rank_enter_lt ht (by simp [hphase, Phase.rank]) rfl rfl
  | refuse ht hphase => exact rank_enter_lt ht (by simp [hphase, Phase.rank]) rfl rfl
  | start ht hphase =>
    exact rank_enter_lt ht (by simp [hphase, Phase.rank, Stage.left]) rfl rfl
  | @work i t worker stage ht hphase hleft =>
    refine rank_enter_lt ht ?_ rfl rfl
    have hstep := Trace.left_step setup t.path (s.traceAt stage)
    simp only [hphase, Phase.rank, traceAt] at hstep ⊢
    omega
  | release ht hphase => exact rank_enter_lt ht (by simp [hphase, Phase.rank]) rfl rfl
  | giveUp ht hphase => exact rank_enter_lt ht (by simp [hphase, Phase.rank]) rfl rfl
  | deliver ht hphase => exact rank_enter_lt ht (by simp [hphase, Phase.rank]) rfl rfl
  | closed he =>
    have hlength := List.length_erase_add_one he
    rw [rank, rank, foldr_add_eq, foldr_add_eq s.tickets]
    exact Nat.add_lt_add_left (by rw [closed, ← hlength]; exact Nat.lt_add_one _) _

/-- **A service at rest** has completed every request, and nobody waits for an executor any more. -/
theorem completed_of_settled
    (hexecutor : ∀ t ∈ s.tickets, t.phase = .submitting → s.executor ≠ none)
    (h : ∀ s', ¬ Step setup s s') :
    (∀ t ∈ s.tickets, ∃ c, t.phase = .completed c) ∧ s.closers = [] := by
  have htracing : ∀ t ∈ s.tickets, ∀ worker stage, t.phase ≠ .tracing worker stage := by
    intro t ht worker stage hphase
    obtain ⟨i, hi⟩ := List.getElem?_of_mem ht
    by_cases hleft : stage.left = 0
    · obtain ⟨e, rfl⟩ := Stage.left_eq_zero.mp hleft
      exact h _ (.release hi hphase)
    · exact h _ (.work hi hphase hleft)
  have hleaving : ∀ t ∈ s.tickets, ∀ worker c, t.phase ≠ .leaving worker c := by
    intro t ht worker c hphase
    obtain ⟨i, hi⟩ := List.getElem?_of_mem ht
    exact h _ (.deliver hi hphase)
  -- so every worker is free to begin with a request
  have hfree : ∀ e, ¬ s.Working e := by
    rintro e ⟨t, ht, hworker⟩
    cases hphase : t.phase with
    | tracing worker stage => exact htracing t ht worker stage hphase
    | leaving worker c => exact hleaving t ht worker c hphase
    | _ => simp [hphase, Phase.worker?] at hworker
  have hcompleted : ∀ t ∈ s.tickets, ∃ c, t.phase = .completed c := by
    intro t ht
    obtain ⟨i, hi⟩ := List.getElem?_of_mem ht
    cases hphase : t.phase with
    | preparing => exact absurd (.prepare hi hphase) (h _)
    | submitting =>
      obtain ⟨e, he⟩ := Option.ne_none_iff_exists'.mp (hexecutor t ht hphase)
      exact absurd (.refuse hi hphase he) (h _)
    | refused => exact absurd (.giveUp hi hphase) (h _)
    | queued e => exact absurd (.start hi hphase (hfree e)) (h _)
    | tracing worker stage => exact absurd hphase (htracing t ht worker stage)
    | leaving worker c => exact absurd hphase (hleaving t ht worker c)
    | completed c => exact ⟨c, rfl⟩
  refine ⟨hcompleted, List.eq_nil_iff_forall_not_mem.mpr fun e he => ?_⟩
  refine h _ (.closed he (fun t ht hwaits => ?_) ?_)
  · obtain ⟨c, hc⟩ := hcompleted t ht
    simp [hc, Phase.executor?, Phase.worker?] at hwaits
  · rintro ⟨t, ht, hsubmission⟩
    obtain ⟨c, hc⟩ := hcompleted t ht
    simp [hc, Phase.isSubmission] at hsubmission

end Service

end IncludeTrace
