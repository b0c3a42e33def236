import IncludeTrace.Proofs.Database.Units
import IncludeTrace.Proofs.Graph.Canonical
import IncludeTrace.World.Standard

/-!
# Files under their own paths

An entry names a file, and the file may be absolute. Such a file is named whatever the directory of the
entry is, so the entry should be found under the file's own path: the last one of all that name the same
file, the relative ones being seen from their directories (`Database.namedKey`). This is so for files
that begin with a slash, and in entries whose directory is empty (`Database.find_by_own_file`).

But units are stored where directory and file lead when they are joined, and joining takes no notice of
drives. A file on a drive is put behind the directory, drive and all, and it is never found under its
own path as long as the directory is rooted or has anything in it (`Database.find_ne_of_drive`). The
reason is that the segments of both are counted up (`Path.length_segments_join`), and that keys keep
their number.
-/

namespace IncludeTrace

namespace Path

variable {cwd directory p : Text}

/-! ### Drives behind directories -/

/-- A path comes behind a directory with nothing of the directory lost, unless the path is rooted. -/
theorem prefix_join (directory : Text) (hp : p.startsWith ['/'] = false) :
    directory <+: join directory p := by
  rw [join, hp, if_neg Bool.false_ne_true]
  split
  · exact List.prefix_append directory p
  · exact List.prefix_append directory ('/' :: p)

/-- A path that is on a drive in slashes does not begin with a slash. -/
theorem startsWith_of_hasDrive (h : hasDrive (slashed p) = true) : p.startsWith ['/'] = false := by
  rw [← root_eq_nil_iff]
  by_contra hroot
  exact root_slashed_ne_nil hroot (root_of_hasDrive h)

/-- As many segments as a foreign path has, its key has too. -/
theorem length_segments_key (cwd : Text) (hp : isForeign p = true) :
    (segments (key cwd p)).length = (segments (slashed p)).length := by
  rw [key, if_pos hp, keepsShape_lower.segments, List.length_map, segments_normal]

/-- Where a path on a drive is put behind a directory and the whole is on a drive too, **the segments of
both remain**. -/
theorem length_segments_join (hdrive : hasDrive (slashed p) = true) (hstays : StaysOnDrive p)
    (hwhole : hasDrive (slashed (join directory p)) = true) (hne : directory ≠ []) :
    (segments (slashed (join directory p))).length =
      (segments (slashed directory)).length + (segments (slashed p)).length := by
  obtain ⟨c, rest, hp, hc⟩ := exists_of_hasDrive hdrive
  have hrooted := startsWith_of_hasDrive hdrive
  have hroot : root (slashed directory) = [] := by
    rw [root_eq_nil_iff, Bool.eq_false_iff]
    intro h
    have hstarts : (slashed (join directory p)).startsWith ['/'] = true := List.isPrefixOf_iff_prefix.mpr
      ((List.isPrefixOf_iff_prefix.mp h).trans ((prefix_join directory hrooted).map _))
    cases (hasDrive_of_startsWith hstarts).symm.trans hwhole
  obtain ⟨front, hfront, hjoin⟩ := exists_join_eq hne
  -- a slash at the end of the directory makes no segment
  have hsettle : settle false (Text.pieces '/' (slashed directory)) =
      settle false (Text.pieces '/' (slashed front)) := by
    rcases hfront with rfl | rfl
    · rfl
    · have hslashed : slashed (front ++ ['/']) = slashed front ++ ['/'] := List.map_append
      rw [hslashed, Text.pieces_append_cons, settle, List.foldl_append]
      have hskip : ∀ kept, addSegment false kept [] = kept := addSegment_of_here (.inl rfl)
      exact hskip _
  have hslashed : slashed (join directory p) = slashed front ++ '/' :: slashed p := by
    rw [hjoin p hrooted]
    exact List.map_append
  have hsegments : segments (slashed (join directory p)) =
      (onDrive p ++ [c, ':'] :: settle false (Text.pieces '/' (slashed directory))).reverse := by
    rw [segments_eq, root_of_hasDrive hwhole, hslashed, Text.pieces_append_cons, settle,
      List.foldl_append, hsettle]
    exact congrArg List.reverse (foldl_pieces_of_staysOnDrive hp hc hstays _ _)
  rw [hsegments, segments_of_staysOnDrive hp hc hstays, segments_eq, hroot]
  simp only [List.length_reverse, List.length_append, List.length_cons, List.isEmpty_nil, Bool.not_true]
  omega

/-- **A path on a drive has another key behind a directory**, if the directory is rooted or has
segments. -/
theorem key_join_ne_of_drive (hcwd : cwd.startsWith ['/'] = true) (hdrive : hasDrive (slashed p) = true)
    (hstays : StaysOnDrive p)
    (hdirectory : directory.startsWith ['/'] = true ∨ segments (slashed directory) ≠ []) :
    key cwd (join directory p) ≠ key cwd p := by
  intro hkey
  have hown : hasDrive (key cwd p) = true := (key_of_staysOnDrive cwd hdrive hstays).1
  have hwhole : hasDrive (slashed (join directory p)) = true := by
    by_contra h
    have hrooted := startsWith_key hcwd (Bool.not_eq_true _ ▸ h)
    rw [hkey] at hrooted
    cases (hasDrive_of_startsWith hrooted).symm.trans hown
  have hsegments : segments (slashed directory) ≠ [] := by
    refine hdirectory.resolve_left fun hrooted => ?_
    cases (startsWith_join hrooted p).symm.trans (startsWith_of_hasDrive hwhole)
  have hne : directory ≠ [] := by
    rintro rfl
    exact hsegments rfl
  have hforeign : ∀ {q : Text}, hasDrive (slashed q) = true → isForeign q = true := fun h => by
    rw [isForeign, h, Bool.true_or]
  have hlength := congrArg (fun k => (segments k).length) hkey
  simp only [length_segments_key cwd (hforeign hwhole), length_segments_key cwd (hforeign hdrive),
    length_segments_join hdrive hstays hwhole hne] at hlength
  exact hsegments (List.length_eq_zero_iff.mp (by omega))

end Path

namespace Database

variable {w : World} {cwd key directory : Text} {timeout : Number} {db : Database} {log : List Entry}
  {u v : TranslationUnit} {us : List TranslationUnit}

/-! ### The files that entries name -/

/-- The key of the file that an entry **names**: an absolute file is meant as it stands, and any other
one as it is seen from the directory. -/
def namedKey (cwd : Text) (u : TranslationUnit) : Text :=
  if Path.isAbsolute u.file then Path.key cwd u.file else unitKey cwd u

/-- A unit is **in place** if its file, where it is absolute, begins with a slash or has no directory in
front of it. -/
def InPlace (u : TranslationUnit) : Prop :=
  Path.isAbsolute u.file = true → u.file.startsWith ['/'] = true ∨ u.directory = []

instance : DecidablePred InPlace := fun u => inferInstanceAs
  (Decidable (Path.isAbsolute u.file = true → u.file.startsWith ['/'] = true ∨ u.directory = []))

/-- A unit in place is stored under the key of the file that its entry names. -/
theorem InPlace.unitKey_eq (h : InPlace u) (cwd : Text) : unitKey cwd u = namedKey cwd u := by
  rw [namedKey]
  split
  · next habsolute =>
    rw [unitKey]
    rcases h habsolute with hrooted | hempty
    · rw [Path.join_of_startsWith hrooted]
    · have hjoin : Path.join [] u.file = u.file := by simp [Path.join]
      rw [hempty, hjoin]
  · rfl

/-- The last unit with a key is one behind which no other has the key. -/
theorem lastWith_eq_some_iff : lastWith cwd key us = some v ↔ ∃ before after,
    us = before ++ v :: after ∧ unitKey cwd v = key ∧ ∀ v' ∈ after, unitKey cwd v' ≠ key := by
  rw [lastWith, List.getLast?_eq_head?_reverse, ← List.filter_reverse, List.head?_filter,
    List.find?_eq_some_iff_append]
  simp only [decide_eq_true_eq, Bool.not_eq_true', decide_eq_false_iff_not]
  constructor
  · rintro ⟨hv, after, before, hus, hafter⟩
    refine ⟨before.reverse, after.reverse, ?_, hv, fun v' hv' => hafter v' (List.mem_reverse.mp hv')⟩
    rw [← List.reverse_reverse us, hus, List.reverse_append, List.reverse_cons, List.append_assoc]
    rfl
  · rintro ⟨before, after, rfl, hv, hafter⟩
    refine ⟨hv, after.reverse, before.reverse, ?_, fun v' hv' => hafter v' (List.mem_reverse.mp hv')⟩
    rw [List.reverse_append, List.reverse_cons, List.append_assoc]
    rfl

/-- A unit with a key has a last one with this key. -/
theorem exists_lastWith (hu : u ∈ us) (hkey : unitKey cwd u = key) :
    ∃ v, lastWith cwd key us = some v := by
  cases h : lastWith cwd key us with
  | some v => exact ⟨v, rfl⟩
  | none =>
    rw [lastWith, List.getLast?_eq_none_iff, List.filter_eq_nil_iff] at h
    exact absurd (decide_eq_true hkey) (h u hu)

/-! ### Look-up by the file -/

/-- What is found under a path has the key of the path. -/
theorem Keyed.unitKey_of_find (h : Keyed cwd db.units) {path : Text} (hfind : db.find cwd path = .ok u) :
    unitKey cwd u = Path.key cwd path := by
  rw [Database.find] at hfind
  split at hfind
  · cases hfind
  · split at hfind
    · next v hv =>
      obtain rfl := Except.ok.inj hfind
      obtain ⟨entry, hentry, rfl⟩ := Option.map_eq_some_iff.mp hv
      have hname := List.find?_some hentry
      rw [← h.key_eq entry (List.mem_of_find?_eq_some hentry)]
      exact of_decide_eq_true hname
    · cases hfind

/-- **No unit is found under its own file on a drive**, if its directory is rooted or has segments. -/
theorem find_ne_of_drive (h : openIn w directory timeout = (.ok db, log))
    (hcwd : w.cwd.startsWith ['/'] = true) (hdrive : Path.hasDrive (Path.slashed u.file) = true)
    (hstays : Path.StaysOnDrive u.file)
    (hdirectory : u.directory.startsWith ['/'] = true ∨ Path.segments (Path.slashed u.directory) ≠ []) :
    db.find w.cwd u.file ≠ .ok u := fun hfind =>
  Path.key_join_ne_of_drive hcwd hdrive hstays hdirectory ((keyed_openIn h).unitKey_of_find hfind)

/-- **An entry is found under its own absolute file.**

The entries of an open database that name a file are its units, one by one. Let the file of a unit be
the absolute path of a source file, and let all units in place that are stored under the key of this
path or name a file with this key. Then something is found under the path: the last unit that names a
file with the key of the path, be it absolute or relative. Units are in place if their files begin with
a slash, if their files are relative, or if they have empty directories. -/
theorem find_by_own_file (w : World) (directory : Text) (timeout : Number) (db : Database)
    (log : List Entry) (h : openIn w directory timeout = (.ok db, log)) :
    ∃ (entries : List Json) (us : List TranslationUnit), load w db.path = .ok entries ∧
      List.Forall₂ (IsUnit db.buildDirectory) (entries.filter namesFile) us ∧
      ∀ u ∈ us, Command.isSource u.file = true → Path.isAbsolute u.file = true →
        (∀ v ∈ us, namedKey w.cwd v = Path.key w.cwd u.file ∨ unitKey w.cwd v = Path.key w.cwd u.file →
          InPlace v) →
        ∃ before v after, us = before ++ v :: after ∧ db.find w.cwd u.file = .ok v ∧
          namedKey w.cwd v = Path.key w.cwd u.file ∧
          ∀ v' ∈ after, namedKey w.cwd v' ≠ Path.key w.cwd u.file := by
  obtain ⟨entries, us, rfl, -, -, hload, hus, -⟩ := openIn_eq_ok_iff.mp h
  refine ⟨entries, us, hload, hus, fun u hu hsource habsolute hplace => ?_⟩
  -- for the units that matter it is the same to be stored under the key and to name it
  have hiff : ∀ v ∈ us, unitKey w.cwd v = Path.key w.cwd u.file ↔
      namedKey w.cwd v = Path.key w.cwd u.file := by
    intro v hv
    constructor
    · intro hkey
      rw [← (hplace v hv (.inr hkey)).unitKey_eq, hkey]
    · intro hkey
      rw [(hplace v hv (.inl hkey)).unitKey_eq, hkey]
  have hown : unitKey w.cwd u = Path.key w.cwd u.file := (hiff u hu).mpr (if_pos habsolute)
  obtain ⟨v, hlast⟩ := exists_lastWith hu hown
  have hfind : (withUnits w directory timeout us).find w.cwd u.file = .ok v := by
    rw [find_withUnits us hsource, hlast]
  obtain ⟨before, after, hsplit, hkey, hafter⟩ := lastWith_eq_some_iff.mp hlast
  have hmem : ∀ v' ∈ v :: after, v' ∈ us := fun v' hv' => hsplit ▸ List.mem_append_right before hv'
  refine ⟨before, v, after, hsplit, hfind, (hiff v (hmem v List.mem_cons_self)).mp hkey,
    fun v' hv' hnamed => hafter v' hv' ?_⟩
  exact (hiff v' (hmem v' (List.mem_cons_of_mem v hv'))).mpr hnamed

/-- Units are made of their entries. -/
theorem map_some_of_forall₂ {buildDirectory : Text} {entries : List Json}
    (h : List.Forall₂ (IsUnit buildDirectory) entries us) :
    entries.map (fun entry => (unit? buildDirectory entry).toOption.join) = us.map some := by
  induction h with
  | nil => rfl
  | cons hu _ ih =>
    rw [List.map_cons, unit?_eq_some_iff.mpr hu, ih]
    rfl

/-- A file that a later entry names as seen from its directory, one on a drive that has no directory in
front of it, and one that begins with two slashes; another file on a drive is not in place, and it does
not matter for these. -/
theorem find_by_own_file_mixed :
    let document : Text :=
      "[\x7b\"directory\": \"/w\", \"file\": \"/src/A.cpp\"\x7d, " ++
        "\x7b\"directory\": \"\", \"file\": \"C:\\\\src\\\\a.cpp\"\x7d, " ++
        "\x7b\"directory\": \"/w\", \"file\": \"D:/d.cpp\"\x7d, " ++
        "\x7b\"directory\": \"/w/x\", \"file\": \"../../SRC/a.CPP\"\x7d, " ++
        "\x7b\"directory\": \"C:\\\\b\", \"file\": \"//server/c.cc\"\x7d]"
    let w : World :=
      ⟨"/w", [("/b/compile_commands.json", Utf8.encode document)], [], [], [], [], [], [], [], .standard⟩
    let found : List (Text × Text) := [("/src/A.cpp", "../../SRC/a.CPP"),
      ("C:\\src\\a.cpp", "C:\\src\\a.cpp"), ("//server/c.cc", "//server/c.cc")]
    ∃ db log, openIn w "/b" standardTimeout = (.ok db, log) ∧ ∀ pair ∈ found, ∃ v,
      db.find w.cwd pair.1 = .ok v ∧ v.file = pair.2 ∧ namedKey w.cwd v = Path.key w.cwd pair.1 := by
  intro document w found
  have hopened : (openIn w "/b" standardTimeout).1.toOption.map (fun db => (db.path, db.buildDirectory,
      found.map fun pair => (db.find w.cwd pair.1).toOption.map TranslationUnit.file)) =
      some ("/b/compile_commands.json".toList, "/b".toList, found.map fun pair => some pair.2) := by
    decide +kernel
  obtain ⟨db, log, hdb, hresults⟩ := exists_openIn_eq hopened
  obtain ⟨hpath, hresults⟩ := Prod.mk.inj hresults
  obtain ⟨hbuild, hfiles⟩ := Prod.mk.inj hresults
  obtain ⟨entries, us, hload, hus, hfind⟩ := find_by_own_file w "/b" standardTimeout db log hdb
  let shapes : List (Text × Text) := [("/src/A.cpp", "/w"), ("C:\\src\\a.cpp", []), ("D:/d.cpp", "/w"),
    ("../../SRC/a.CPP", "/w/x"), ("//server/c.cc", "C:\\b")]
  -- what matters of a unit is read off its entry
  let shape (u : TranslationUnit) : Text × Text := (u.file, u.directory)
  have hshapes : us.map shape = shapes := by
    have hmade : (load w "/b/compile_commands.json").toOption.map (fun entries =>
        (entries.filter namesFile).map fun entry => (unit? "/b" entry).toOption.join.map shape) =
        some (shapes.map some) := by decide +kernel
    have hunits := congrArg (List.map (Option.map shape)) (map_some_of_forall₂ hus)
    rw [List.map_map, List.map_map, hbuild] at hunits
    rw [← hpath, hload] at hmade
    refine List.map_injective_iff.mpr (fun _ _ => Option.some.inj) ?_
    rw [List.map_map]
    exact hunits.symm.trans (Option.some.inj hmade)
  have hplaces : ∀ pair ∈ found, (∃ s ∈ shapes, s.1 = pair.1) ∧ Command.isSource pair.1 = true ∧
      Path.isAbsolute pair.1 = true ∧ ∀ s ∈ shapes, namedKey w.cwd ⟨[], s.1, s.2⟩ = Path.key w.cwd pair.1 ∨
        unitKey w.cwd ⟨[], s.1, s.2⟩ = Path.key w.cwd pair.1 → InPlace ⟨[], s.1, s.2⟩ := by
    decide +kernel
  refine ⟨db, log, hdb, fun pair hpair => ?_⟩
  obtain ⟨⟨s, hs, hfile⟩, hsource, habsolute, hplace⟩ := hplaces pair hpair
  obtain ⟨u, hu, rfl⟩ := List.mem_map.mp (hshapes ▸ hs)
  have hfile : u.file = pair.1 := hfile
  obtain ⟨-, v, -, -, hv, hkey, -⟩ := hfind u hu (hfile ▸ hsource) (hfile ▸ habsolute) fun v hv =>
    hfile ▸ hplace (shape v) (hshapes ▸ List.mem_map_of_mem hv)
  rw [hfile] at hv hkey
  have hnamed := List.map_inj_left.mp hfiles pair hpair
  rw [hv] at hnamed
  exact ⟨v, hv, Option.some.inj hnamed, hkey⟩

/-- **A file on a drive, or on a share that is spelled with backslashes, is lost** where its entry has a
directory. And a file on a drive may be found in the place of another one. -/
theorem find_by_own_file_drive :
    let document : Text :=
      "[\x7b\"directory\": \"C:\\\\build\", \"file\": \"C:\\\\src\\\\a.cpp\"\x7d, " ++
        "\x7b\"file\": \"/w/C:/b.c\"\x7d, " ++
        "\x7b\"directory\": \"/w\", \"file\": \"C:/b.c\"\x7d, " ++
        "\x7b\"directory\": \"/w\", \"file\": \"\\\\\\\\server\\\\c.cc\"\x7d]"
    let w : World :=
      ⟨"/w", [("/b/compile_commands.json", Utf8.encode document)], [], [], [], [], [], [], [], .standard⟩
    let find (p : Text) : Option (Option Text) := (openIn w "/b" standardTimeout).1.toOption.map
      fun db => (db.find w.cwd p).toOption.map TranslationUnit.file
    (∀ p ∈ ["C:\\src\\a.cpp".toList, "C:/b.c".toList, "\\\\server\\c.cc".toList],
      Command.isSource p = true ∧ Path.isAbsolute p = true ∧ find p = some none) ∧
    find "/w/C:/b.c" = some (some "C:/b.c".toList) ∧
      Path.key w.cwd "C:/b.c" ≠ Path.key w.cwd "/w/C:/b.c" := by
  decide +kernel

end Database

end IncludeTrace
