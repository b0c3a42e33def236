import IncludeTrace.CommandLine.Work
import IncludeTrace.Proofs.CommandLine.Attempts
import IncludeTrace.Proofs.Database.Trace
import IncludeTrace.Proofs.World.Requests

/-!
# The work is a sequence of attempts

The program merges saved transcripts and traces sources. `Attempt.ofSaved` and `Attempt.ofSource` say
what it gets to merge each time: from the file that is named, or from a run of the compiler while the
flag of the source is on. `Work.Makes` ties work to such attempts: each was noted with its root and
whether it succeeded, and the graph is what they made of it.

A transcript that cannot be read, a source that cannot be traced and a malformed transcript are noted
like any other, and the work goes on. So all transcripts are attempted (`Work.makes_addAllSaved`) and
all sources (`Work.makes_traceAll`). What an attempt at a source gets depends on the database as it was
opened and on the compiler runs that are left, and on nothing else that earlier ones did.
-/

namespace IncludeTrace

open CommandLine (Value)

namespace Attempt

/-! ### What there is to merge -/

/-- The attempt at a transcript that an argument names. -/
def ofSaved (w : World) (directories : List Value) (argument : Value) : Attempt :=
  match argument.bind Work.savedTranscript? with
  | some (root, file) =>
    match w.read file with
    | .ok bytes => supplied ⟨root, Value.beforeVoid directories, TraceLine.standardMarker,
        Utf8.lossy bytes⟩ (Value.anyVoid directories)
    | .error _ => lacking (some root)
  | none => lacking none

/-- The attempt at a source: its compiler runs with its flag on, then its directories are asked for. -/
def ofSource (db : Database) (w : World) : Value → Attempt
  | none => lacking none
  | some path =>
    let db := db.reporting w.cwd path
    match (db.run w path).outcome, db.directories w.cwd path with
    | .value output, .ok directories =>
      supplied ⟨path, directories, TraceLine.standardMarker, output⟩ false
    | .interrupted, _ => interrupted (some path)
    | _, _ => lacking (some path)

/-- The world after an attempt at a source. -/
def worldAfter (db : Database) (w : World) : Value → World
  | none => w
  | some path => ((db.reporting w.cwd path).run w path).world

/-- The attempts at sources, one after another. -/
def ofSources (db : Database) (w : World) : List Value → List Attempt
  | [] => []
  | source :: rest => ofSource db w source :: ofSources db (worldAfter db w source) rest

variable {db : Database} {w : World} {source : Value}

@[simp]
theorem root_ofSaved {directories : List Value} {argument : Value} :
    (ofSaved w directories argument).root =
      (argument.bind Work.savedTranscript?).map Prod.fst := by
  cases h : argument.bind Work.savedTranscript? with
  | none => simp only [ofSaved, h]; rfl
  | some pair =>
    cases hread : w.read pair.2 <;> (simp only [ofSaved, h, hread]; rfl)

@[simp]
theorem root_ofSource : (ofSource db w source).root = source := by
  cases source with
  | none => rfl
  | some path =>
    rw [ofSource]
    split <;> rfl

@[simp]
theorem map_root_ofSources {sources : List Value} :
    (ofSources db w sources).map Attempt.root = sources := by
  induction sources generalizing w with
  | nil => rfl
  | cons source rest ih => rw [ofSources, List.map_cons, root_ofSource, ih]

@[simp]
theorem view_worldAfter : (worldAfter db w source).view = w.view := by
  cases source with
  | none => rfl
  | some path => exact (Database.view_run _ w path).1

@[simp]
theorem host_worldAfter : (worldAfter db w source).host = w.host := by
  cases source with
  | none => rfl
  | some path => exact (Database.view_run _ w path).2

theorem isCut_ofSaved {directories : List Value} {argument : Value} {view : FileView}
    (h : Value.anyVoid directories = false) :
    (ofSaved w directories argument).isCut view = false := by
  rw [ofSaved, h]
  split
  · split <;> rfl
  · rfl

theorem isCut_ofSource {view : FileView} : (ofSource db w source).isCut view = false := by
  cases source with
  | none => rfl
  | some path =>
    rw [ofSource]
    split <;> rfl

/-- Every attempt at one of some sources is made in some world. -/
theorem exists_of_mem_ofSources {sources : List Value} {a : Attempt}
    (h : a ∈ ofSources db w sources) : ∃ w' source, a = ofSource db w' source := by
  induction sources generalizing w with
  | nil => cases h
  | cons source rest ih =>
    rcases List.mem_cons.mp h with rfl | h
    · exact ⟨w, source, rfl⟩
    · exact ih h

/-- The flags of a database do not matter to an attempt. -/
theorem ofSource_congr {db' : Database} (h : db.Alike db') :
    ofSource db' w source = ofSource db w source ∧
      worldAfter db' w source = worldAfter db w source := by
  cases source with
  | none => exact ⟨rfl, rfl⟩
  | some path =>
    obtain ⟨houtcome, hworld⟩ := h.run w path
    simp only [ofSource, houtcome, h.directories w.cwd path, worldAfter, hworld, and_self]

/-- What an attempt at a source gets is what the merge of its trace needs; without it the attempt is
interrupted or lacks something. -/
theorem ofSource_cases (db : Database) (w : World) (path : Text) :
    let supplied := Workshop.collaborators.Supplies path ⟨db, w⟩
    let outcome := ((db.reporting w.cwd path).run w path).outcome
    (∃ output directories, supplied output directories ∧ outcome ≠ .interrupted ∧
      ofSource db w (some path) =
        .supplied ⟨path, directories, TraceLine.standardMarker, output⟩ false) ∨
    (∀ output directories, ¬ supplied output directories) ∧
      (ofSource db w (some path) = .interrupted (some path) ∨
        outcome ≠ .interrupted ∧ ofSource db w (some path) = .lacking (some path)) := by
  simp only [Workshop.supplies_iff, ofSource]
  cases ((db.reporting w.cwd path).run w path).outcome with
  | interrupted => simp
  | failure f => simp
  | value output =>
    cases (db.reporting w.cwd path).directories w.cwd path with
    | error f => simp
    | ok directories => simp

end Attempt

/-- The result of a trace says whether its transcript starts directly. -/
theorem TraceResult.success_merge (g : Graph) (view : FileView) (t : Transcript) (path : Text) :
    TraceResult.success ⟨path, (g.merge view t.unit t.directories t.marker t.text).verdictOf⟩ =
      decide (Merge.StartsDirect t.lines) := by
  by_cases hd : Merge.StartsDirect t.lines
  · rw [Merge.Report.verdictOf, Graph.verdict_merge_of_startsDirect hd, decide_eq_true hd]
    rfl
  · obtain ⟨fault, hfault⟩ := Graph.merge_fails_iff.mpr hd
    rw [Merge.Report.verdictOf, hfault, decide_eq_false hd]
    rfl

namespace Session

/-- **A trace with a database is an attempt**: it leaves the graph and the world as the attempt does,
and its result says whether the attempt succeeded. -/
theorem trace_makes (g : Graph) (db : Database) (w : World) (path : Text)
    (h : (Attempt.ofSource db w (some path)).isInterrupted = false) :
    let r := (Session.new g ⟨db, w⟩).trace (Workshop.setup w.view TraceLine.standardMarker) path
    let a := Attempt.ofSource db w (some path)
    r.session.graph = a.merge w.view g ∧
      r.session.outside.world = Attempt.worldAfter db w (some path) ∧
      db.Alike r.session.outside.database ∧
      ∃ result, r.answer = .result result ∧ result.success = a.succeeds w.view := by
  intro r a
  let setup := Workshop.setup w.view TraceLine.standardMarker
  let s := Session.new g (⟨db, w⟩ : Workshop)
  obtain ⟨hworld, halike, hending⟩ :=
    Workshop.ended_leaves w.view TraceLine.standardMarker g db w path
  have hsession : r.session = ⟨_, _, none⟩ := (trace_of_free rfl).1
  have houtside : r.session.outside.world = Attempt.worldAfter db w (some path) ∧
      db.Alike r.session.outside.database := by
    rw [hsession]
    exact ⟨hworld, halike⟩
  obtain ⟨output, directories, hsupplies, hrun, ha⟩ | ⟨hlacks, ha⟩ :=
    Attempt.ofSource_cases db w path
  · obtain ⟨hgraph, hended⟩ :=
      @ended_of_supplies _ setup path s output directories hsupplies
    obtain ⟨hanswer, hafter⟩ := answer_of_completed rfl (hended.resolve_right (hending hrun))
    refine ⟨?_, houtside.1, houtside.2, _, hanswer, ?_⟩
    · rw [show a = _ from ha]
      exact hafter.trans hgraph
    · rw [show a = _ from ha, Attempt.succeeds, Bool.not_false, Bool.true_or, Bool.and_true]
      exact TraceResult.success_merge g w.view ⟨path, directories, _, output⟩ path
  · obtain ⟨hrun, ha⟩ := ha.resolve_left fun ha => by rw [ha] at h; cases h
    obtain ⟨hgraph, hended⟩ := @ended_of_not_supplies _ setup path s hlacks
    obtain ⟨reason, hended⟩ := hended.resolve_left (hending hrun)
    obtain ⟨hanswer, hafter⟩ := answer_of_completed rfl hended
    rw [show a = _ from ha]
    exact ⟨hafter.trans hgraph, houtside.1, houtside.2, _, hanswer, rfl⟩

end Session

namespace Work

variable {work work' work'' : Work} {as as' : List Attempt}

/-- Work **makes** attempts on the way to other work: it notes each of them with its root and whether it
succeeds, and the graph is what they make of it. -/
structure Makes (work : Work) (as : List Attempt) (work' : Work) : Prop where
  results : work'.results =
    work.results ++ as.map fun a => (a.root, a.succeeds work.world.view)
  graph : work'.graph = Attempt.mergeAll work.world.view work.graph as
  view : work'.world.view = work.world.view
  host : work'.world.host = work.world.host

namespace Makes

theorem refl (work : Work) : work.Makes [] work := ⟨(List.append_nil _).symm, rfl, rfl, rfl⟩

theorem trans (h : work.Makes as work') (h' : work'.Makes as' work'') :
    work.Makes (as ++ as') work'' where
  results := by
    rw [h'.results, h.results, h.view, List.map_append, List.append_assoc]
  graph := by
    rw [h'.graph, h.graph, h.view]
    exact List.foldl_append.symm
  view := h'.view.trans h.view
  host := h'.host.trans h.host

/-- What was logged before does not matter. -/
theorem of_logged {log : List Entry} (h : (work.logged log).Makes as work') : work.Makes as work' :=
  ⟨h.results, h.graph, h.view, h.host⟩

end Makes

/-! ### Saved transcripts -/

/-- Merging a transcript is an attempt, with the void directory if there is one. -/
theorem extend_eq_merge (work : Work) (directories : List Value) (root text : Text) :
    let a := Attempt.supplied ⟨root, Value.beforeVoid directories, TraceLine.standardMarker, text⟩
      (Value.anyVoid directories)
    (work.extend directories root text).1 = a.merge work.world.view work.graph ∧
      (work.extend directories root text).2.1 = a.succeeds work.world.view := by
  intro a
  rw [Attempt.merge_supplied, extend]
  cases hvoid : Value.anyVoid directories with
  | false =>
    simp only [a, hvoid, Attempt.succeeds, Bool.not_false, Bool.true_or, Bool.and_true]
    exact Graph.extend_eq_linkAll work.graph work.world.view ⟨root, _, _, text⟩
  | true =>
    simp only [a, hvoid, Attempt.succeeds, Bool.not_true, Bool.false_or]
    exact Graph.extendToVoid_eq_linkAll work.graph work.world.view ⟨root, _, _, text⟩ _

/-- Whether an argument names a saved transcript, in a file whose name is fit. -/
def namesSaved (w : World) (argument : Value) : Bool :=
  (argument.bind savedTranscript?).any fun saved => w.isFit saved.2

/-- **Step.** A saved transcript is one attempt, and reading it leaves the world as it is. -/
theorem makes_addSaved (work : Work) (directories : List Value) {argument : Value}
    {root file : Text} (h : argument.bind savedTranscript? = some (root, file))
    (hfit : work.world.isFit file = true) :
    ∃ work', work.addSaved directories root file = (work', none) ∧
      work.Makes [.ofSaved work.world directories argument] work' ∧ work'.world = work.world := by
  cases hread : work.world.read file with
  | error refusal =>
    obtain ⟨e, rfl⟩ := World.exists_of_read_eq_error hfit hread
    simp only [Attempt.ofSaved, h, addSaved, hread]
    exact ⟨_, rfl, ⟨rfl, rfl, rfl, rfl⟩, rfl⟩
  | ok bytes =>
    simp only [Attempt.ofSaved, h, addSaved, hread]
    obtain ⟨hgraph, hflag⟩ := extend_eq_merge work directories root (Utf8.lossy bytes)
    refine ⟨_, rfl, ⟨?_, hgraph, rfl, rfl⟩, rfl⟩
    exact congrArg (fun success => work.results ++ [(some root, success)]) hflag

/-- **Run.** All saved transcripts are attempted, if every argument names one. -/
theorem makes_addAllSaved (directories : List Value) (work : Work) {arguments : List Value}
    (h : ∀ v ∈ arguments, namesSaved work.world v) :
    ∃ work', addAllSaved directories work arguments = (work', none) ∧
      work.Makes (arguments.map (.ofSaved work.world directories)) work' ∧
      work'.world = work.world := by
  induction arguments generalizing work with
  | nil => exact ⟨work, rfl, .refl work, rfl⟩
  | cons v rest ih =>
    obtain ⟨⟨root, file⟩, hv, hfit⟩ := (Option.any_eq_true _ _).mp (h v List.mem_cons_self)
    obtain ⟨next, hadd, hstep, hworld⟩ := makes_addSaved work directories hv hfit
    obtain ⟨work', hrun, hmakes, hworld'⟩ := ih next fun u hu =>
      hworld.symm ▸ h u (List.mem_cons_of_mem v hu)
    obtain ⟨argument, rfl, hargument⟩ := Option.bind_eq_some_iff.mp hv
    refine ⟨work', ?_, ?_, hworld'.trans hworld⟩
    · rw [addAllSaved, hargument]
      simp only [hadd]
      exact hrun
    · rw [hworld] at hmakes
      exact hstep.trans hmakes

/-! ### Sources -/

/-- What follows when a source was traced, in terms of the response to its trace. -/
theorem traceAll_some (p : Palette) {database : Database} {work : Work} {source : Text}
    {r : Response Workshop}
    (hr : (Session.new work.graph ⟨database, work.world⟩).trace
      (Workshop.setup work.world.view TraceLine.standardMarker) source = r) (rest : List Value) :
    traceAll p database work (some source :: rest) =
      let left := ({ work with graph := r.session.graph, world := r.session.outside.world }).logged r.log
      match r.answer with
      | .result result => traceAll p r.session.outside.database
        (({ left with emissions := left.emissions ++ failureLine p result }).noted source
          result.success) rest
      | _ => (left, some .interrupted) := by
  subst hr
  rfl

/-- **Run.** All sources are attempted, if none of the attempts is interrupted. The database in use may
have other flags than the one that was opened. -/
theorem makes_traceAll (p : Palette) {db database : Database} (work : Work) {sources : List Value}
    (halike : db.Alike database)
    (h : ∀ a ∈ Attempt.ofSources db work.world sources, a.isInterrupted = false) :
    ∃ work', traceAll p database work sources = (work', none) ∧
      work.Makes (Attempt.ofSources db work.world sources) work' := by
  induction sources generalizing database work with
  | nil => exact ⟨work, rfl, .refl work⟩
  | cons source rest ih =>
    have hfirst : (Attempt.ofSource db work.world source).isInterrupted = false :=
      h _ List.mem_cons_self
    have hrest : ∀ a ∈ Attempt.ofSources db (Attempt.worldAfter db work.world source) rest,
        a.isInterrupted = false := fun a ha => h a (List.mem_cons_of_mem _ ha)
    cases source with
    | none =>
      have hstep : work.Makes [.lacking none] (work.failVoid p) := ⟨rfl, rfl, rfl, rfl⟩
      obtain ⟨work', hrun, hmakes⟩ := ih (work.failVoid p) halike hrest
      exact ⟨work', hrun, hstep.trans hmakes⟩
    | some path =>
      obtain ⟨hsame, hworld⟩ := @Attempt.ofSource_congr db work.world (some path) _ halike
      rw [← hsame] at hfirst
      obtain ⟨hgraph, hafter, hdatabase, result, hanswer, hsuccess⟩ :=
        Session.trace_makes work.graph database work.world path hfirst
      rw [hsame] at hgraph hsuccess
      rw [hworld] at hafter
      generalize hr : (Session.new work.graph ⟨database, work.world⟩).trace
        (Workshop.setup work.world.view TraceLine.standardMarker) path = r at *
      have hnext := traceAll_some p hr rest
      simp only [hanswer] at hnext
      let left := ({ work with
        graph := r.session.graph, world := r.session.outside.world }).logged r.log
      let next := ({ left with emissions := left.emissions ++ failureLine p result }).noted path
        result.success
      have hstep : work.Makes [.ofSource db work.world (some path)] next := by
        refine ⟨?_, hgraph, ?_, ?_⟩
        · rw [List.map_singleton, Attempt.root_ofSource, ← hsuccess]
          rfl
        · exact (congrArg World.view hafter).trans Attempt.view_worldAfter
        · exact (congrArg World.host hafter).trans Attempt.host_worldAfter
      rw [← hafter] at hrest
      obtain ⟨work', hrun, hmakes⟩ := ih next (halike.trans hdatabase) hrest
      refine ⟨work', hnext.trans hrun, ?_⟩
      rw [Attempt.ofSources, ← hafter]
      exact hstep.trans hmakes

/-- All sources of a build directory that opens are attempted: the given ones, or all if none are
given. -/
theorem makes_traceBuild (p : Palette) (work : Work) (directory : Text) {sources : List Value}
    {db : Database}
    (hopen : (Database.openIn work.world directory Database.standardTimeout).1 = .ok db)
    (h : ∀ a ∈ Attempt.ofSources db work.world
      (if sources.isEmpty then db.sources.map some else sources), a.isInterrupted = false) :
    ∃ work', traceBuild p work directory sources = (work', none) ∧
      work.Makes (Attempt.ofSources db work.world
        (if sources.isEmpty then db.sources.map some else sources)) work' := by
  rcases hopened : Database.openIn work.world directory Database.standardTimeout with ⟨opened, log⟩
  obtain rfl : opened = .ok db := by rw [hopened] at hopen; exact hopen
  simp only [traceBuild, hopened]
  by_cases hsources : sources.isEmpty = true
  · simp only [if_pos hsources] at h ⊢
    obtain ⟨work', hrun, hmakes⟩ := makes_traceAll p (work.logged log |>.logged
      [⟨.info, "Tracing all " ++ Text.ofNat db.sources.length ++ " translation units in " ++
        directory⟩]) (.refl db) h
    exact ⟨work', hrun, hmakes.of_logged.of_logged⟩
  · simp only [if_neg hsources] at h ⊢
    obtain ⟨work', hrun, hmakes⟩ := makes_traceAll p (work.logged log) (.refl db) h
    exact ⟨work', hrun, hmakes.of_logged⟩

/-! ### Printing -/

end Work

/-- Whether a text can be printed. -/
def Host.prints (host : Host) (t : Text) : Bool := (host.unprintable? t).isNone

namespace Work

/-- **What comes of printing texts.** If all can be printed they are put out, and otherwise the work
ends early; nothing else changes. -/
theorem printed_cases (work : Work) (texts : List Text) :
    (texts.all work.world.host.prints = true ∧
      ∃ emissions, work.printed texts = ({ work with emissions := emissions }, none)) ∨
    (texts.all work.world.host.prints = false ∧
      ∃ emissions reason, work.printed texts =
        ({ work with emissions := emissions }, some (.unforeseen reason))) := by
  induction texts generalizing work with
  | nil => exact .inl ⟨rfl, work.emissions, rfl⟩
  | cons t rest ih =>
    rw [List.all_cons, printed, Host.prints]
    cases work.world.host.unprintable? t with
    | some reason => exact .inr ⟨rfl, work.emissions, reason, rfl⟩
    | none =>
      rw [Option.isNone_none, Bool.true_and]
      exact ih { work with emissions := work.emissions ++ [.out t] }

end Work

end IncludeTrace
