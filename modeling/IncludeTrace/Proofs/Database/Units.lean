import IncludeTrace.Proofs.Database.Listing
import IncludeTrace.Proofs.Graph.Arcs
import IncludeTrace.World.Standard

/-!
# The units of a database

The file of a database is a list of entries, and each entry that names a file is a unit
(`Database.IsUnit`). Entries may repeat a file under other spellings: of units with one key the last one
counts, and it stands where the first one stood. So a database is a table that is made by putting one
unit after another under its key (`Database.collectUnits_eq_ok_iff`), and what it finds and what it
lists can be read off the list of units (`Database.find_last`).

Entries that name no file are passed over. Nothing depends on them, whatever they are and wherever they
stand.
-/

namespace IncludeTrace.Database

variable {w : World} {cwd buildDirectory directory path : Text} {timeout : Number} {entry : Json}
  {entries : List Json} {u : TranslationUnit} {units : Table TranslationUnit} {log : List Entry}

/-! ### Entries -/

/-- Whether an entry is an object that names a file. -/
def namesFile : Json → Bool
  | .object fields => Table.has fields "file"
  | _ => false

/-- Whether a value is a text. -/
def isText : Json → Bool
  | .string _ => true
  | _ => false

/-- An entry **is a unit** if it is an object with a text for its file and, if it has a directory of its
own, a text for the directory. -/
structure IsUnit (buildDirectory : Text) (entry : Json) (u : TranslationUnit) : Prop where
  entry_eq : entry = .object u.fields
  file_eq : ∃ file, Table.get? u.fields "file" = some (.string file) ∧ u.file = file.toText
  directory_eq : ∃ directory, (Table.get? u.fields "directory").getD (.text buildDirectory) =
    .string directory ∧ u.directory = directory.toText

theorem unit?_eq_some_iff : unit? buildDirectory entry = .ok (some u) ↔
    IsUnit buildDirectory entry u := by
  constructor
  · intro h
    unfold unit? at h
    split at h
    · next fields =>
      split at h
      · cases h
      · next file hfile =>
        split at h
        · next directory file' hdirectory =>
          obtain rfl := Option.some.inj (Except.ok.inj h)
          exact ⟨rfl, ⟨_, hfile, rfl⟩, ⟨_, hdirectory, rfl⟩⟩
        · cases h
        · cases h
    · cases h
  · rintro ⟨rfl, ⟨file, hfile, hfile'⟩, directory, hdirectory, hdirectory'⟩
    obtain ⟨fields, _, _⟩ := u
    dsimp only at hfile hfile' hdirectory hdirectory'
    subst hfile' hdirectory'
    simp only [unit?, hfile, hdirectory]

/-- An entry is passed over if it names no file. -/
theorem unit?_eq_none_iff : unit? buildDirectory entry = .ok none ↔ namesFile entry = false := by
  cases entry with
  | object fields =>
    simp only [unit?, namesFile, Table.has]
    cases Table.get? fields "file" with
    | none => simp
    | some file =>
      split
      · next hnone => cases hnone
      · next hsome =>
        obtain rfl := Option.some.inj hsome
        simp only [Option.isSome_some, Bool.true_eq_false, iff_false]
        split <;> simp
  | _ => exact ⟨fun _ => rfl, fun _ => rfl⟩

theorem IsUnit.namesFile (h : IsUnit buildDirectory entry u) : namesFile entry = true := by
  obtain ⟨rfl, ⟨file, hfile, -⟩, -⟩ := h
  rw [Database.namesFile, Table.has, hfile, Option.isSome_some]

/-! ### Collecting -/

/-- What is said of an entry that is passed over. -/
def passedOver (entry : Json) : Entry :=
  ⟨.warning, "Skipping invalid entry in " ++ fileName ++ ": " ++ entry.display⟩

/-- The table with units put one after another under their keys. -/
def putUnits (cwd : Text) (units : Table TranslationUnit) (us : List TranslationUnit) :
    Table TranslationUnit :=
  us.foldl (fun table u => table.put (unitKey cwd u) u) units

/-- **Collecting** succeeds if every entry that names a file is a unit. It puts the units one after
another, and what it says is about the other entries. -/
theorem collectUnits_eq_ok_iff {units' : Table TranslationUnit} :
    collectUnits cwd buildDirectory units entries = (.ok units', log) ↔
      (∃ us, List.Forall₂ (IsUnit buildDirectory) (entries.filter namesFile) us ∧
        units' = putUnits cwd units us) ∧
      log = (entries.filter fun entry => !namesFile entry).map passedOver := by
  induction entries generalizing units log with
  | nil =>
    simp only [collectUnits, List.filter_nil, List.forall₂_nil_left_iff, List.map_nil, Prod.mk.injEq,
      Except.ok.injEq, exists_eq_left, putUnits, List.foldl_nil, eq_comm]
  | cons entry rest ih =>
    rw [collectUnits]
    cases hunit : unit? buildDirectory entry with
    | error f =>
      -- the entry names a file, and it is no unit
      have hnames : namesFile entry = true := by
        rw [← Bool.not_eq_false, ← unit?_eq_none_iff, hunit]
        simp
      have hno : ∀ u, ¬ IsUnit buildDirectory entry u := by
        intro u hu
        cases hunit.symm.trans (unit?_eq_some_iff.mpr hu)
      simp [hnames, List.forall₂_cons_left_iff, hno]
    | ok found =>
      cases found with
      | none =>
        have hnames := unit?_eq_none_iff.mp hunit
        cases hcollect : collectUnits cwd buildDirectory units rest with
        | mk result log' =>
        simp only [Prod.mk.injEq, hnames, Bool.false_eq_true, not_false_eq_true,
          List.filter_cons_of_neg, Bool.not_false, List.filter_cons_of_pos, List.map_cons]
        constructor
        · rintro ⟨rfl, rfl⟩
          obtain ⟨hus, hlog⟩ := ih.mp hcollect
          exact ⟨hus, congrArg (passedOver entry :: ·) hlog⟩
        · rintro ⟨hus, rfl⟩
          obtain ⟨rfl, rfl⟩ := Prod.mk.inj (hcollect.symm.trans (ih.mpr ⟨hus, rfl⟩))
          exact ⟨rfl, rfl⟩
      | some u =>
        have hu := unit?_eq_some_iff.mp hunit
        have hsame : ∀ v, IsUnit buildDirectory entry v ↔ v = u := by
          refine fun v => ⟨fun hv => ?_, fun hv => hv ▸ hu⟩
          exact Option.some.inj (Except.ok.inj ((unit?_eq_some_iff.mpr hv).symm.trans hunit))
        simp [hu.namesFile, List.forall₂_cons_left_iff, hsame, ih, putUnits]

/-- The last of units that has a key. -/
def lastWith (cwd key : Text) (us : List TranslationUnit) : Option TranslationUnit :=
  (us.filter fun u => unitKey cwd u = key).getLast?

theorem putUnits_nil_eq (cwd : Text) (us : List TranslationUnit) :
    putUnits cwd [] us = Table.ofPairs (us.map fun u => (unitKey cwd u, u)) := by
  rw [putUnits, Table.ofPairs, List.foldl_map]

/-- Under a key the last unit is found. -/
theorem get?_putUnits (cwd key : Text) (us : List TranslationUnit) :
    (putUnits cwd [] us).get? key = lastWith cwd key us := by
  rw [putUnits_nil_eq, Table.get?_ofPairs, List.filter_map, List.getLast?_map, Option.map_map, lastWith]
  exact Option.map_id'

/-- The keys stand in the order in which they first occurred. -/
theorem names_putUnits (cwd : Text) (us : List TranslationUnit) :
    (putUnits cwd [] us).map Prod.fst = distinct (us.map (unitKey cwd)) := by
  induction us using List.reverseRecOn with
  | nil => rfl
  | append_singleton us u ih =>
    have hput : putUnits cwd [] (us ++ [u]) = (putUnits cwd [] us).put (unitKey cwd u) u :=
      List.foldl_concat ..
    have hmem : unitKey cwd u ∈ distinct (us.map (unitKey cwd)) ↔ unitKey cwd u ∈ us.map (unitKey cwd) :=
      mem_distinct
    rw [hput, Table.names_put, ih, List.map_append, List.map_singleton, distinct_concat]
    simp only [hmem]

/-! ### Opening -/

/-- The database of a build directory with the given units. -/
def withUnits (w : World) (directory : Text) (timeout : Number) (us : List TranslationUnit) : Database :=
  let buildDirectory := Path.absolute w.cwd directory
  ⟨buildDirectory, Path.join buildDirectory fileName, timeout, putUnits w.cwd [] us, []⟩

/-- What is said when a database is open. -/
def loaded (db : Database) : Entry :=
  ⟨.debug, "Loaded " ++ Text.ofNat db.units.length ++ " compile commands from " ++ db.path⟩

/-- **Opening** succeeds if the build directory has a file with a list in it whose entries, as far as
they name files, are units. -/
theorem openIn_eq_ok_iff {db : Database} : openIn w directory timeout = (.ok db, log) ↔
    ∃ entries us, db = withUnits w directory timeout us ∧
      w.isDirectory directory = true ∧ w.isFile db.path = true ∧ load w db.path = .ok entries ∧
      List.Forall₂ (IsUnit db.buildDirectory) (entries.filter namesFile) us ∧
      log = (entries.filter fun entry => !namesFile entry).map passedOver ++ [db.loaded] := by
  constructor
  · intro h
    rw [openIn] at h
    split at h
    · cases h
    · next hdirectory =>
      dsimp only at h
      split at h
      · cases h
      · next hfile =>
        split at h
        · cases h
        · next entries hload =>
          split at h
          · cases h
          · next units log' hcollect =>
            obtain ⟨hdb, rfl⟩ := Prod.mk.inj h
            obtain rfl := Except.ok.inj hdb
            obtain ⟨⟨us, hus, rfl⟩, rfl⟩ := collectUnits_eq_ok_iff.mp hcollect
            exact ⟨entries, us, rfl, by simpa using hdirectory, by simpa using hfile, hload, hus, rfl⟩
  · rintro ⟨entries, us, rfl, hdirectory, hfile, hload, hus, rfl⟩
    have hcollect : collectUnits w.cwd (Path.absolute w.cwd directory) [] entries =
        (.ok (putUnits w.cwd [] us), (entries.filter fun entry => !namesFile entry).map passedOver) :=
      collectUnits_eq_ok_iff.mpr ⟨⟨us, hus, rfl⟩, rfl⟩
    rw [withUnits] at hfile hload ⊢
    simp only [openIn, hdirectory, Bool.not_true, Bool.false_eq_true, if_false, hfile, hload, hcollect,
      loaded]

/-- If something is computed from the database that is opened, then one is opened. -/
theorem exists_openIn_eq {α : Type} {f : Database → α} {x : α}
    (h : (openIn w directory timeout).1.toOption.map f = some x) :
    ∃ db log, openIn w directory timeout = (.ok db, log) ∧ f db = x := by
  generalize openIn w directory timeout = opened at h ⊢
  obtain ⟨fault | db, log⟩ := opened
  · cases h
  · exact ⟨db, log, rfl, Option.some.inj h⟩

/-- What a database finds under a path of a source file. -/
theorem find_withUnits (us : List TranslationUnit) (hsource : Command.isSource path = true) :
    (withUnits w directory timeout us).find w.cwd path =
      match lastWith w.cwd (Path.key w.cwd path) us with
      | some u => .ok u
      | none => .error (.unknown path (withUnits w directory timeout us).path) := by
  rw [find, hsource, ← get?_putUnits]
  rfl

/-- A database lists one path for each key. -/
theorem sources_withUnits (us : List TranslationUnit) :
    List.Forall₂ (fun key listed => ∃ u, lastWith w.cwd key us = some u ∧ listed = Path.normal u.path)
      (distinct (us.map (unitKey w.cwd))) (withUnits w directory timeout us).sources := by
  have hnodup : ((putUnits w.cwd [] us).map Prod.fst).Nodup := by
    rw [putUnits_nil_eq]
    exact Table.nodup_ofPairs _
  rw [← names_putUnits, sources, List.forall₂_map_left_iff, List.forall₂_map_right_iff, withUnits,
    List.forall₂_same]
  intro entry hentry
  exact ⟨entry.2, (get?_putUnits w.cwd entry.1 us).symm.trans (Table.get?_of_mem hnodup hentry), rfl⟩

/-- **The last entry of a file counts, in the place of the first one.**

The entries of an open database that name a file are its units, one by one. Under a path of a source
file the database finds the last unit with the key of the path, and nothing if there is none. It lists
one path for each key, in the order in which the keys first occur, and this is the path of the last unit
with that key. The other entries do not matter: in a world where the file has the same entries apart
from these, the same database is opened. -/
theorem find_last (w : World) (directory : Text) (timeout : Number) (db : Database) (log : List Entry)
    (h : openIn w directory timeout = (.ok db, log)) :
    ∃ (entries : List Json) (us : List TranslationUnit), load w db.path = .ok entries ∧
      List.Forall₂ (IsUnit db.buildDirectory) (entries.filter namesFile) us ∧
      (∀ path, Command.isSource path = true → db.find w.cwd path =
        match lastWith w.cwd (Path.key w.cwd path) us with
        | some u => .ok u
        | none => .error (.unknown path db.path)) ∧
      List.Forall₂ (fun key listed => ∃ u, lastWith w.cwd key us = some u ∧ listed = Path.normal u.path)
        (distinct (us.map (unitKey w.cwd))) db.sources ∧
      ∀ (w' : World) (entries' : List Json), w'.cwd = w.cwd → w'.isDirectory directory = true →
        w'.isFile db.path = true → load w' db.path = .ok entries' →
        entries'.filter namesFile = entries.filter namesFile →
        ∃ log', openIn w' directory timeout = (.ok db, log') := by
  obtain ⟨entries, us, rfl, hdirectory, hfile, hload, hus, hlog⟩ := openIn_eq_ok_iff.mp h
  refine ⟨entries, us, hload, hus, fun path hsource => find_withUnits us hsource, sources_withUnits us,
    fun w' entries' hcwd hdirectory' hfile' hload' hsame => ?_⟩
  have hdb : withUnits w directory timeout us = withUnits w' directory timeout us := by
    rw [withUnits, withUnits, hcwd]
  rw [← hsame] at hus
  exact ⟨_, openIn_eq_ok_iff.mpr ⟨entries', us, hdb, hdirectory', hfile', hload', hus, rfl⟩⟩

/-- Two files, each with a second entry under another spelling, and four entries that name no file. -/
theorem find_last_mixed :
    let document : Text :=
      "[5, \x7b\"directory\": \"/w\", \"file\": \"A.cpp\"\x7d, \x7b\"directory\": \"/w/x\"\x7d, " ++
        "\x7b\"file\": \"b.c\"\x7d, [null], " ++
        "\x7b\"directory\": \"/w/sub\", \"file\": \"..\\\\a.CPP\"\x7d, null, " ++
        "\x7b\"file\": \"x/../B.c\"\x7d]"
    let w : World :=
      ⟨"/w", [("/b/compile_commands.json", Utf8.encode document)], [], [], [], [], [], [], [], .standard⟩
    ∃ db log us, openIn w "/b" standardTimeout = (.ok db, log) ∧
      db.sources = ["/w/sub/..\\a.CPP".toList, "/b/B.c".toList] ∧
      (lastWith w.cwd "/w/a.cpp" us).map TranslationUnit.file = some "..\\a.CPP".toList ∧
      ∃ u, lastWith w.cwd "/w/a.cpp" us = some u ∧ db.find w.cwd "/w/y/../A.CPP" = .ok u := by
  intro document w
  have hopened : (openIn w "/b" standardTimeout).1.toOption.map (fun db => (db.sources,
      (db.find w.cwd "/w/y/../A.CPP").toOption.map TranslationUnit.file)) =
      some (["/w/sub/..\\a.CPP".toList, "/b/B.c".toList], some "..\\a.CPP".toList) := by decide +kernel
  obtain ⟨db, log, hdb, hresults⟩ := exists_openIn_eq hopened
  obtain ⟨hsources, hfile⟩ := Prod.mk.inj hresults
  obtain ⟨-, us, -, -, hfind, -⟩ := find_last w "/b" standardTimeout db log hdb
  have hlast := hfind "/w/y/../A.CPP" (by decide +kernel)
  rw [show Path.key w.cwd "/w/y/../A.CPP" = "/w/a.cpp".toList by decide +kernel] at hlast
  rw [hlast] at hfile
  cases hu : lastWith w.cwd "/w/a.cpp" us with
  | none =>
    rw [hu] at hfile
    cases hfile
  | some u =>
    rw [hu] at hfile hlast
    exact ⟨db, log, us, hdb, hsources, by rw [hu]; exact hfile, u, hu, hlast⟩

end IncludeTrace.Database
