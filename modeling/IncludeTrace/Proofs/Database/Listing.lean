import IncludeTrace.Database.Basic
import IncludeTrace.Proofs.Path.Faithful
import IncludeTrace.Proofs.Table
import IncludeTrace.World.Standard

/-!
# The listing of a database

A database lists its units under one path and finds them under another one: what is listed is the
normal form of the path that directory and file make together, what is looked up is the key of this
path. Every unit is stored under its key, and keys are distinct (`Database.keyed_openIn`). So a unit is
found under the path that it is listed by if normal form does not change the key, that is, if the path
is faithful (`Database.find_listed`).

Of a drive that is spelled with backslashes nothing may be left: where a file is taken from the
directory above, normal form takes back the drive, and what is listed names nothing
(`Database.find_listed_drive`).
-/

namespace IncludeTrace

/-- The path of a unit, as its entry spells it. -/
def TranslationUnit.path (u : TranslationUnit) : Text := Path.join u.directory u.file

namespace Database

variable {cwd buildDirectory : Text} {units : Table TranslationUnit}

/-- Units are **keyed** if each is stored under its key, and no two are under one key. -/
structure Keyed (cwd : Text) (units : Table TranslationUnit) : Prop where
  nodup : (units.map Prod.fst).Nodup
  key_eq : ∀ entry ∈ units, entry.1 = unitKey cwd entry.2

theorem keyed_nil : Keyed cwd [] := ⟨List.nodup_nil, List.forall_mem_nil _⟩

theorem Keyed.put (h : Keyed cwd units) (u : TranslationUnit) :
    Keyed cwd (units.put (unitKey cwd u) u) := by
  refine ⟨Table.nodup_put h.nodup _ _, fun entry hentry => ?_⟩
  rcases Table.of_mem_put hentry with rfl | hold
  · rfl
  · exact h.key_eq entry hold

theorem Keyed.collectUnits {entries : List Json} {units' : Table TranslationUnit} {log : List Entry}
    (h : Keyed cwd units)
    (hcollect : Database.collectUnits cwd buildDirectory units entries = (.ok units', log)) :
    Keyed cwd units' := by
  induction entries generalizing units log with
  | nil =>
    obtain ⟨hunits, -⟩ := Prod.mk.inj hcollect
    exact Except.ok.inj hunits ▸ h
  | cons entry rest ih =>
    rw [Database.collectUnits] at hcollect
    split at hcollect
    · cases hcollect
    · next u _ => exact ih (h.put u) hcollect
    · obtain ⟨hunits, -⟩ := Prod.mk.inj hcollect
      exact ih h (Prod.ext hunits rfl)

/-- **The units of an open database are keyed.** -/
theorem keyed_openIn {w : World} {directory : Text} {timeout : Number} {db : Database}
    {log : List Entry} (h : openIn w directory timeout = (.ok db, log)) : Keyed w.cwd db.units := by
  rw [openIn] at h
  split at h
  · cases h
  · simp only at h
    split at h
    · cases h
    · split at h
      · cases h
      · split at h
        · cases h
        · next hcollect =>
          obtain ⟨hdb, -⟩ := Prod.mk.inj h
          obtain rfl := Except.ok.inj hdb
          exact keyed_nil.collectUnits hcollect

/-- A unit with a faithful path is found under the path that it is listed by. -/
theorem Keyed.find {db : Database} (h : Keyed cwd db.units) {key : Text} {u : TranslationUnit}
    (hu : (key, u) ∈ db.units) (hpath : Path.Faithful u.path)
    (hsource : Command.isSource (Path.normal u.path) = true) :
    db.find cwd (Path.normal u.path) = .ok u := by
  have hkey : Path.key cwd (Path.normal u.path) = key :=
    (hpath.key_normal cwd).trans (h.key_eq _ hu).symm
  rw [Database.find, hsource, hkey, Table.get?_of_mem h.nodup hu]
  rfl

/-- Units with faithful paths are listed under different paths. -/
theorem Keyed.eq_of_listed {db : Database} (h : Keyed cwd db.units) {n m : ℕ} {key key' : Text}
    {u u' : TranslationUnit} (hu : db.units[n]? = some (key, u)) (hu' : db.units[m]? = some (key', u'))
    (hpath : Path.Faithful u.path) (hpath' : Path.Faithful u'.path)
    (hlisted : Path.normal u.path = Path.normal u'.path) : n = m := by
  have hkey : key = key' := by
    calc key = Path.key cwd u.path := h.key_eq _ (List.mem_of_getElem? hu)
      _ = Path.key cwd (Path.normal u.path) := (hpath.key_normal cwd).symm
      _ = Path.key cwd u'.path := by rw [hlisted, hpath'.key_normal]
      _ = key' := (h.key_eq _ (List.mem_of_getElem? hu')).symm
  have hn : (db.units.map Prod.fst)[n]? = some key := by rw [List.getElem?_map, hu, Option.map_some]
  have hm : (db.units.map Prod.fst)[m]? = some key := by
    rw [List.getElem?_map, hu', Option.map_some, hkey]
  exact (List.getElem?_inj (List.getElem?_eq_some_iff.mp hn).1 h.nodup).mp (hn.trans hm.symm)

/-- **What a database lists it finds.**

Every database that opens lists its units one by one. A unit whose path is faithful is found under the
path that it is listed by, if this is the path of a source file; and no other unit with a faithful path
is listed by the same one. -/
theorem find_listed (w : World) (directory : Text) (timeout : Number) (db : Database)
    (log : List Entry) (h : openIn w directory timeout = (.ok db, log)) :
    db.sources.length = db.units.length ∧
    ∀ (n : ℕ) (key : Text) (u : TranslationUnit), db.units[n]? = some (key, u) →
      db.sources[n]? = some (Path.normal u.path) ∧
      (Path.Faithful u.path → Command.isSource (Path.normal u.path) = true →
        db.find w.cwd (Path.normal u.path) = .ok u) ∧
      ∀ (m : ℕ) (key' : Text) (u' : TranslationUnit), db.units[m]? = some (key', u') →
        Path.Faithful u.path → Path.Faithful u'.path → db.sources[m]? = db.sources[n]? → m = n := by
  have hkeyed := keyed_openIn h
  have hlisted : ∀ {n : ℕ} {key : Text} {u : TranslationUnit}, db.units[n]? = some (key, u) →
      db.sources[n]? = some (Path.normal u.path) := by
    intro n key u hu
    rw [sources, List.getElem?_map, hu]
    rfl
  refine ⟨List.length_map _, fun n key u hu => ⟨hlisted hu, fun hpath hsource => ?_,
    fun m key' u' hu' hpath hpath' hsame => ?_⟩⟩
  · exact hkeyed.find (List.mem_of_getElem? hu) hpath hsource
  · rw [hlisted hu', hlisted hu] at hsame
    exact hkeyed.eq_of_listed hu' hu hpath' hpath (Option.some.inj hsame)

/-- Two units are spelled with backslashes, one of them on a drive; a third one has no directory of its
own and stands two times in the file. -/
theorem find_listed_mixed :
    let document : Text :=
      "[\x7b\"directory\": \"C:\\\\build\", \"file\": \"..\\\\src/./A.cpp\"\x7d, " ++
        "\x7b\"directory\": \"/w/out\", \"file\": \"../b\\\\c.c\"\x7d, " ++
        "\x7b\"file\": \"x/../d.cc\"\x7d, \x7b\"file\": \"d.cc\"\x7d]"
    let w : World :=
      ⟨"/w", [("/b/compile_commands.json", Utf8.encode document)], [], [], [], [], [], [], [], .standard⟩
    let paths : List Text :=
      ["C:\\build/..\\src/./A.cpp".toList, "/w/out/../b\\c.c".toList, "/b/d.cc".toList]
    ∃ db log, openIn w "/b" standardTimeout = (.ok db, log) ∧
      db.units.map (fun entry => entry.2.path) = paths ∧
      ∀ p ∈ paths, ∃ u, u.path = p ∧ db.find w.cwd (Path.normal p) = .ok u := by
  intro document w paths
  have hopened : (openIn w "/b" standardTimeout).1.toOption.map
      (fun db => db.units.map fun entry => entry.2.path) = some paths := by decide +kernel
  obtain ⟨db, log, hdb⟩ : ∃ db log, openIn w "/b" standardTimeout = (.ok db, log) := by
    generalize openIn w "/b" standardTimeout = opened at hopened ⊢
    obtain ⟨f | db, log⟩ := opened
    · cases hopened
    · exact ⟨db, log, rfl⟩
  rw [hdb] at hopened
  have hpaths : db.units.map (fun entry => entry.2.path) = paths := Option.some.inj hopened
  refine ⟨db, log, hdb, hpaths, fun p hp => ?_⟩
  have hgood : Path.Faithful p ∧ Command.isSource (Path.normal p) = true := by
    revert p
    decide +kernel
  obtain ⟨⟨key, u⟩, hu, rfl⟩ := List.mem_map.mp (hpaths ▸ hp)
  obtain ⟨n, hn⟩ := List.mem_iff_getElem?.mp hu
  obtain ⟨-, hfind⟩ := find_listed w "/b" standardTimeout db log hdb
  exact ⟨u, rfl, (hfind n key u hn).2.1 hgood.1 hgood.2⟩

/-- **A file above the directory of its unit is lost**, if the directory is on a drive and has no slash:
the path that is listed is not absolute, and no unit is found under it. -/
theorem find_listed_drive :
    let document : Text := "[\x7b\"directory\": \"C:\\\\build\\\\x\", \"file\": \"../src/a.cpp\"\x7d]"
    let w : World :=
      ⟨"/w", [("/b/compile_commands.json", Utf8.encode document)], [], [], [], [], [], [], [], .standard⟩
    let opened := (openIn w "/b" standardTimeout).1.toOption
    opened.map sources = some ["src/a.cpp".toList] ∧
      Command.isSource "src/a.cpp" = true ∧
      (opened.map fun db => (db.find w.cwd "src/a.cpp").toOption.isSome) = some false := by
  decide +kernel

end Database

end IncludeTrace
