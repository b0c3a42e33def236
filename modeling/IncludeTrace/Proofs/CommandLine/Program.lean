import IncludeTrace.CommandLine.Program
import IncludeTrace.Proofs.CommandLine.Work
import IncludeTrace.World.Standard

/-!
# What the program does

`Settings.attempts` lists what settings ask for: the saved transcripts, then the sources of the build
directory. Settings that can be followed make just these attempts, in order
(`CommandLine.makes_collect`), and no failure of one stops or changes another. In the end the exit code
tells whether everything went well, which all that is printed is part of
(`CommandLine.follow_of_collect`).

`CommandLine.run_isolates_failures` puts this together. There are failures that do show
(`CommandLine.failures_that_show`). A merge that comes to a void directory keeps what it merged before.
And where the host is in the way, a file whose name it does not take ends the program, and a text that
cannot be printed makes it fail.
-/

namespace IncludeTrace.CommandLine

namespace Settings

/-- The translation unit of the saved transcript that an argument names. -/
def rootOf (argument : Value) : Value := (argument.bind Work.savedTranscript?).map Prod.fst

/-- The database of the build directory, if one is given and opens. -/
def database? (s : Settings) (w : World) : Option Database :=
  match s.buildDirectory with
  | some (c :: directory) =>
    (Database.openIn w (c :: directory) Database.standardTimeout).1.toOption
  | _ => none

/-- The sources to trace with a database: the given ones, or all if none are given. -/
def sourcesOf (s : Settings) (db : Database) : List Value :=
  if s.sources.isEmpty then db.sources.map some else s.sources

/-- The files to trace: the units of the saved transcripts, then the sources. -/
def roots (s : Settings) (w : World) : List Value :=
  s.traceFiles.map rootOf ++ match s.database? w with
    | some db => s.sourcesOf db
    | none => []

/-- The **attempts** that settings ask for. -/
def attempts (s : Settings) (w : World) : List Attempt :=
  s.traceFiles.map (Attempt.ofSaved w s.includeDirs) ++ match s.database? w with
    | some db => Attempt.ofSources db w (s.sourcesOf db)
    | none => []

variable {s : Settings} {w : World}

theorem of_database? {db : Database} (h : s.database? w = some db) :
    ∃ c directory, s.buildDirectory = some (c :: directory) ∧
      (Database.openIn w (c :: directory) Database.standardTimeout).1 = .ok db := by
  rw [database?] at h
  split at h
  · next c directory hdirectory =>
    refine ⟨c, directory, hdirectory, ?_⟩
    cases hopen : (Database.openIn w (c :: directory) Database.standardTimeout).1 with
    | error f => rw [hopen] at h; cases h
    | ok db' => rw [hopen] at h; exact congrArg Except.ok (Option.some.inj h)
  · cases h

theorem map_root_attempts : (s.attempts w).map Attempt.root = s.roots w := by
  rw [attempts, roots, List.map_append, List.map_map]
  congr 1
  · exact List.map_congr_left fun v _ => Attempt.root_ofSaved
  · cases s.database? w with
    | none => rfl
    | some db => exact Attempt.map_root_ofSources

/-- Without a void directory no attempt is cut. -/
theorem isCut_eq_false (hvoid : Value.anyVoid s.includeDirs = false) {a : Attempt}
    (ha : a ∈ s.attempts w) (view : FileView) : a.isCut view = false := by
  rw [attempts, List.mem_append] at ha
  rcases ha with ha | ha
  · obtain ⟨v, -, rfl⟩ := List.mem_map.mp ha
    exact Attempt.isCut_ofSaved hvoid
  · split at ha
    · obtain ⟨w', source, rfl⟩ := Attempt.exists_of_mem_ofSources ha
      exact Attempt.isCut_ofSource
    · cases ha

end Settings

variable {s : Settings} {w : World} {p : Palette}

/-- **The program makes the attempts that it is asked for.** -/
theorem makes_collect (p : Palette)
    (paired : ∀ v ∈ s.traceFiles, Work.namesSaved w v)
    (opens : s.buildDirectory.getD [] ≠ [] → (s.database? w).isSome)
    (uninterrupted : ∀ a ∈ s.attempts w, a.isInterrupted = false) :
    ∃ work, collect p s w = (work, none) ∧ (Work.new w).Makes (s.attempts w) work := by
  obtain ⟨saved, hrun, hmakes, hworld⟩ := Work.makes_addAllSaved s.includeDirs (.new w) paired
  cases hdb : s.database? w with
  | none =>
    have hbuild : s.buildDirectory.getD [] = [] := by
      by_contra h
      simpa [hdb] using opens h
    refine ⟨saved, ?_, ?_⟩
    · rw [collect, hrun]
      dsimp only
      split
      · next hdirectory => simp [hdirectory] at hbuild
      · rfl
    · rw [Settings.attempts, hdb, List.append_nil]
      exact hmakes
  | some db =>
    obtain ⟨c, directory, hdirectory, hopen⟩ := Settings.of_database? hdb
    have hattempts : s.attempts w = s.traceFiles.map (Attempt.ofSaved w s.includeDirs) ++
        Attempt.ofSources db w (s.sourcesOf db) := by rw [Settings.attempts, hdb]
    have hsources : ∀ a ∈ Attempt.ofSources db saved.world (s.sourcesOf db),
        a.isInterrupted = false := by
      rw [hworld]
      exact fun a ha => uninterrupted a (hattempts ▸ List.mem_append_right _ ha)
    obtain ⟨work, hbuild, hmakes'⟩ :=
      Work.makes_traceBuild p saved (c :: directory) (hworld ▸ hopen) hsources
    refine ⟨work, ?_, ?_⟩
    · rw [collect, hrun, hdirectory]
      exact hbuild
    · rw [hattempts]
      rw [hworld] at hmakes'
      exact hmakes.trans hmakes'

/-- Nothing failed exactly if all results are good. -/
theorem failed_eq_nil {work : Work} : work.failed = [] ↔ work.results.all Prod.snd = true := by
  simp [Work.failed, List.filter_eq_nil_iff]

/-- **The exit code of a verdict** tells whether all traces succeeded, and this could be printed. -/
theorem verdict_code (p : Palette) (work : Work) :
    (verdict p work).2 =
      if work.results.all Prod.snd && work.world.host.prints (mergedLine p) then 0 else 2 := by
  rw [verdict]
  split
  · next place hplace =>
    have hfailed : work.results.all Prod.snd = false := by
      rw [Bool.eq_false_iff]
      intro hall
      rw [failed_eq_nil.mpr hall] at hplace
      cases hplace
    rw [hfailed, Bool.false_and]
    rfl
  · simp only [List.isEmpty_iff, failed_eq_nil]
    split
    · next hall =>
      rw [hall, Bool.true_and, Host.prints]
      cases work.world.host.unprintable? (mergedLine p) <;> rfl
    · next hall => rw [Bool.not_eq_true] at hall; rw [hall]; rfl

/-- What is concluded of work: the world after the export, and whether all went well. -/
theorem concluded_code (p : Palette) (s : Settings) (work : Work) :
    (concluded p s work).1 = (exportAsked p s work).world ∧
      (concluded p s work).2.2 =
        if work.results.all Prod.snd && (exportAsked p s work).written &&
          work.world.host.prints (mergedLine p) then 0 else 2 := by
  refine ⟨rfl, ?_⟩
  rw [concluded]
  cases (exportAsked p s work).written with
  | false => rw [Bool.and_false, Bool.false_and]; rfl
  | true =>
    rw [Bool.and_true]
    exact verdict_code p work

/-- **What following settings comes to**: the world after the export that they ask for, if all could be
shown in front of it, and the exit code. -/
theorem follow_of_collect {work : Work} (h : collect p s w = (work, none)) :
    let shows := (shown p s work).all work.world.host.prints
    let exported := exportAsked p s work
    (follow p s w).1 = (if shows then exported.world else work.world) ∧
      (follow p s w).2.2 =
        if work.results.all Prod.snd && shows && exported.written &&
          work.world.host.prints (mergedLine p) then 0 else 2 := by
  intro shows exported
  rw [follow, h]
  obtain ⟨hshows, emissions, hprinted⟩ | ⟨hshows, emissions, reason, hprinted⟩ :=
    work.printed_cases (shown p s work)
  · -- printing changes neither the graph nor the world, so the export is the same
    obtain ⟨hworld, hcode⟩ := concluded_code p s { work with emissions := emissions }
    simp only [hprinted]
    rw [show shows = true from hshows, if_pos rfl, Bool.and_true]
    exact ⟨hworld, hcode⟩
  · simp only [hprinted]
    rw [show shows = false from hshows, Bool.and_false, Bool.false_and, Bool.false_and]
    exact ⟨rfl, rfl⟩

/-- **Failures stay with the attempts that fail.**

Let settings come from a command line and be ones that can be followed, let every argument for a saved
transcript name one in a file whose name the host takes, let the build directory open if there is one,
and let no compiler run be interrupted. Then every transcript and every source is attempted, in this
order, and noted with whether it succeeded. The includes in the graph are those of the attempts that are
kept, made one after another as if there had been no others; every further file is the unit of a
malformed transcript and includes nothing. Kept are the attempts that succeed and those that are cut;
without a void directory none is cut. The exit code is 0 if all attempts succeeded, and so did the
export if one is asked for, and all that is to be printed can be; and it is 2 otherwise. -/
theorem run_isolates_failures (w : World) (words : List Text) (s : Settings)
    (asked : Request.ofWords words = .run s) (passes : complaint? s = none)
    (paired : ∀ v ∈ s.traceFiles, Work.namesSaved w v)
    (opens : s.buildDirectory.getD [] ≠ [] → (s.database? w).isSome)
    (uninterrupted : ∀ a ∈ s.attempts w, a.isInterrupted = false) :
    let p := if s.noColor then Palette.plain else Palette.ansi
    let attempts := s.attempts w
    let merged := Attempt.mergeAll w.view .empty (attempts.filter (Attempt.isKept w.view))
    (Requirement.complaint .ansi Requirement.standard w.installed "networkx"
      "include graph construction" = none → run w words = runSettings s w) ∧
    attempts.map Attempt.root = s.roots w ∧
    (Value.anyVoid s.includeDirs = false →
      attempts.filter (Attempt.isKept w.view) = attempts.filter (Attempt.succeeds w.view)) ∧
    ∃ work, collect p s w = (work, none) ∧
      work.results = attempts.map (fun a => (a.root, a.succeeds w.view)) ∧
      (∀ key, work.graph.includesOf key = merged.includesOf key) ∧
      (∀ key, work.graph.has key ↔ merged.has key ∨ ∃ a ∈ attempts, a.isMalformed ∧
        a.root.map (Path.key w.cwd) = some key) ∧
      (∀ key, ¬ merged.has key → work.graph.includesOf key = []) ∧
      let shows := (shown p s work).all w.host.prints
      (runSettings s w).world = (if shows then (exportAsked p s work).world else work.world) ∧
      (runSettings s w).exitCode =
        if attempts.all (Attempt.succeeds w.view) && shows && (exportAsked p s work).written &&
          w.host.prints (mergedLine p) then 0 else 2 := by
  intro p attempts merged
  obtain ⟨work, hcollect, hresults, hgraph, -, hhost⟩ := makes_collect p paired opens uninterrupted
  obtain ⟨hworld, hcode⟩ := follow_of_collect hcollect
  rw [hhost] at hworld hcode
  have hsettings : (runSettings s w).world = (follow p s w).1 ∧
      (runSettings s w).exitCode = (follow p s w).2.2 := by
    rw [runSettings, passes]
    exact ⟨rfl, rfl⟩
  have hkept : ∀ key, work.graph.includesOf key = merged.includesOf key := fun key => by
    rw [hgraph]
    exact Attempt.includesOf_mergeAll_kept
  have hresult : work.results.all Prod.snd = attempts.all (Attempt.succeeds w.view) := by
    rw [hresults]
    exact List.all_map
  refine ⟨fun hpackage => ?_, Settings.map_root_attempts, fun hvoid => ?_, work, hcollect, hresults,
    hkept, fun key => ?_, fun key hnew => ?_, hsettings.1.trans hworld,
    hsettings.2.trans (hcode.trans (by rw [hresult]; rfl))⟩
  · rw [run, hpackage, asked]
  · refine List.filter_congr fun a ha => ?_
    rw [Attempt.isKept, Settings.isCut_eq_false hvoid ha, Bool.or_false]
  · rw [hgraph]
    exact Attempt.has_mergeAll_kept
  · rw [hkept, Graph.includesOf_of_not_has hnew]

/-- A file that is not there, a transcript, a compiler that fails and reports a nested line first, and a
source that the database does not know. -/
theorem run_isolates_failures_mixed :
    let words : List Text := ["/b", "--trace-file", "u=/gone", "--trace-file", "/a.cpp=/t",
      "--source", "/w/c.cpp", "--source", "/w/d.cpp"]
    let database : Text :=
      "[\x7b\"directory\": \"/w\", \"file\": \"c.cpp\", \"command\": \"clang -c c.cpp\"\x7d]"
    let w : World := ⟨"/w", [("/t", Utf8.encode "Note: including file: /h"),
      ("/b/compile_commands.json", Utf8.encode database)], [], ["clang"],
      [.exited [] (Utf8.encode "Note: including file:  /x.h") 1], [], [], [], [], .standard⟩
    ∃ s work, Request.ofWords words = .run s ∧ collect .ansi s w = (work, none) ∧
      work.results = [(some "u".toList, false), (some "/a.cpp".toList, true),
        (some "/w/c.cpp".toList, false), (some "/w/d.cpp".toList, false)] ∧
      work.graph.includesOf "/a.cpp" = ["/h".toList] ∧ work.graph.has "/w/c.cpp" ∧
      work.graph.includesOf "/w/c.cpp" = [] ∧ ¬ work.graph.has "/w/d.cpp" ∧
      (runSettings s w).exitCode = 2 := by
  intro words database w
  let s : Settings := ⟨some "/b", [some "/w/c.cpp", some "/w/d.cpp"],
    [some "u=/gone", some "/a.cpp=/t"], [], none, some 0, false, false, false⟩
  have asked : Request.ofWords words = .run s := by rfl
  let attempts := s.attempts w
  let merged := Attempt.mergeAll w.view .empty (attempts.filter (Attempt.isKept w.view))
  obtain ⟨paired, opens, uninterrupted, hfails, hnoted, ha, hc, hmalformed, hd⟩ :
      (∀ v ∈ s.traceFiles, Work.namesSaved w v) ∧
      (s.buildDirectory.getD [] ≠ [] → (s.database? w).isSome) ∧
      (∀ a ∈ attempts, a.isInterrupted = false) ∧
      attempts.all (Attempt.succeeds w.view) = false ∧
      attempts.map (fun a => (a.root, a.succeeds w.view)) = [(some "u".toList, false),
        (some "/a.cpp".toList, true), (some "/w/c.cpp".toList, false),
        (some "/w/d.cpp".toList, false)] ∧
      merged.includesOf "/a.cpp" = ["/h".toList] ∧ merged.includesOf "/w/c.cpp" = [] ∧
      (∃ a ∈ attempts, a.isMalformed ∧ a.root.map (Path.key w.cwd) = some "/w/c.cpp".toList) ∧
      ¬ (merged.has "/w/d.cpp" ∨ ∃ a ∈ attempts, a.isMalformed ∧
        a.root.map (Path.key w.cwd) = some "/w/d.cpp".toList) := by
    decide +kernel
  obtain ⟨-, -, -, work, hcollect, hresults, hincludes, hkeys, -, -, hcode⟩ :=
    run_isolates_failures w words s asked rfl paired opens uninterrupted
  refine ⟨s, work, asked, hcollect, hresults.trans hnoted, (hincludes _).trans ha,
    (hkeys _).mpr (.inr hmalformed), (hincludes _).trans hc, (hkeys _).not.mpr hd, ?_⟩
  rw [hcode, hfails]
  rfl

/-- **Failures that show**, each of settings that can be followed and that name transcripts.

What is merged in front of a void directory stays, although no trace succeeds. On a host that takes no
text with a NUL, a file with one in its name ends the program, and the transcript behind it is not
attempted. And on one that prints nothing but ASCII, the program fails although every trace succeeds. -/
theorem failures_that_show :
    (let words : List Text := ["--trace-file", "/a.cpp=/t", "-I--"]
      let s : Settings := ⟨none, [], [some "/a.cpp=/t"], [none], none, some 0, false, false, false⟩
      let w : World := ⟨"/work", [("/t", Utf8.encode
        "Note: including file: /abs/a.h\nNote: including file: rel.h\n")],
        [], [], [], [], [], [], [], .standard⟩
      let succeeded := (s.attempts w).filter (Attempt.succeeds w.view)
      Request.ofWords words = .run s ∧ (complaint? s).isNone ∧
        (∀ v ∈ s.traceFiles, (v.bind Work.savedTranscript?).isSome) ∧
        (∀ a ∈ s.attempts w, a.isInterrupted = false) ∧ (collect .ansi s w).2.isNone ∧
        (collect .ansi s w).1.results = [(some "/a.cpp".toList, false)] ∧
        (collect .ansi s w).1.graph.includesOf "/a.cpp" = ["/abs/a.h".toList] ∧
        (Attempt.mergeAll w.view .empty succeeded).includesOf "/a.cpp" = []) ∧
    (let words : List Text := ["--trace-file", "/a.cpp=/\x00", "--trace-file", "/b.cpp=/t"]
      let s : Settings := ⟨none, [], [some "/a.cpp=/\x00", some "/b.cpp=/t"], [], none, some 0,
        false, false, false⟩
      let host : Host := { Host.standard with
        unfit? := fun t => if t.contains '\x00' then some "embedded null byte" else none }
      let w : World := ⟨"/work", [("/t", Utf8.encode "Note: including file: /h")],
        [], [], [], [], [], [], [], host⟩
      Request.ofWords words = .run s ∧ (complaint? s).isNone ∧
        (∀ v ∈ s.traceFiles, (v.bind Work.savedTranscript?).isSome) ∧
        (∀ a ∈ s.attempts w, a.isInterrupted = false) ∧
        (s.attempts w).map (Attempt.succeeds w.view) = [false, true] ∧
        (collect .ansi s w).1.results = [] ∧ (runSettings s w).exitCode = 2) ∧
    (let words : List Text := ["--trace-file", "/ä.cpp=/t"]
      let s : Settings := ⟨none, [], [some "/ä.cpp=/t"], [], none, some 0, false, false, false⟩
      let host : Host := { Host.standard with
        unprintable? := fun t => if t.all (fun c => c.toNat < 0x80) then none else some "not ASCII" }
      let w : World := ⟨"/work", [("/t", Utf8.encode "Note: including file: /h")],
        [], [], [], [], [], [], [], host⟩
      Request.ofWords words = .run s ∧ (complaint? s).isNone ∧
        (∀ v ∈ s.traceFiles, (v.bind Work.savedTranscript?).isSome) ∧
        (∀ a ∈ s.attempts w, a.isInterrupted = false) ∧
        (collect .ansi s w).1.results = [(some "/ä.cpp".toList, true)] ∧
        (runSettings s w).exitCode = 2) := by
  refine ⟨?_, ?_, ?_⟩
  · intro words s w succeeded
    have asked : Request.ofWords words = .run s := by rfl
    refine ⟨asked, ?_⟩
    decide +kernel
  · intro words s host w
    have asked : Request.ofWords words = .run s := by rfl
    refine ⟨asked, ?_⟩
    decide +kernel
  · intro words s host w
    have asked : Request.ofWords words = .run s := by rfl
    refine ⟨asked, ?_⟩
    decide +kernel

end IncludeTrace.CommandLine
