import IncludeTrace.CommandLine.Program
import IncludeTrace.Proofs.Database.Units
import IncludeTrace.Proofs.Text.Utf8
import IncludeTrace.Proofs.World.Requests
import IncludeTrace.World.Standard

/-!
# Opening a database

A database can be opened if its build directory has a file with a JSON list in it. Most of what can go
wrong on the way is foreseen: it is reported as something wrong with the build directory. Four things
are not: bytes that are no UTF-8, a numeral that is too long, nesting that is too deep, and an entry
that names a file but is mistyped (`Database.Trips`). `Database.openIn_outcome` says that there are no
others, and when a database opens.

So an entry that is passed over does no harm, and an entry that cannot be used may (`openIn_trips`).
-/

namespace IncludeTrace

/-- Whether a document is not wrong, but more than the reader puts up with. -/
def Json.Cause.isLimit : Json.Cause → Bool
  | .longNumeral _ | .tooDeep _ => true
  | _ => false

namespace Database

variable {w : World} {cwd buildDirectory directory path : Text} {timeout : Number} {entry : Json}
  {entries : List Json} {u : TranslationUnit} {units : Table TranslationUnit} {f : OpenFault}

/-! ### Mistyped entries -/

/-- An entry is **mistyped** if it names a file, and the file or a directory of its own is no text. -/
def Mistyped (entry : Json) : Prop :=
  ∃ fields file, entry = .object fields ∧ Table.get? fields "file" = some file ∧
    (isText file = false ∨ ∃ v, Table.get? fields "directory" = some v ∧ isText v = false)

theorem Mistyped.namesFile (h : Mistyped entry) : namesFile entry = true := by
  obtain ⟨fields, file, rfl, hfile, -⟩ := h
  rw [Database.namesFile, Table.has, hfile, Option.isSome_some]

theorem IsUnit.not_mistyped (h : IsUnit buildDirectory entry u) : ¬ Mistyped entry := by
  obtain ⟨rfl, ⟨file, hfile, -⟩, own, hown, -⟩ := h
  rintro ⟨fields, file', hfields, hfile', hbad⟩
  obtain rfl := Json.object.inj hfields
  obtain rfl := Option.some.inj (hfile.symm.trans hfile')
  rcases hbad with hbad | ⟨v, hv, hbad⟩
  · cases hbad
  · rw [hv, Option.getD_some] at hown
    rw [hown] at hbad
    cases hbad

/-- An entry that names a file is a unit, unless it is mistyped. -/
theorem exists_isUnit (hnames : namesFile entry = true) (h : ¬ Mistyped entry) :
    ∃ u, IsUnit buildDirectory entry u := by
  have htext : ∀ v, isText v ≠ false → ∃ t, v = .string t := by
    intro v hv
    cases v with
    | string t => exact ⟨t, rfl⟩
    | _ => exact absurd rfl hv
  cases entry with
  | object fields =>
    obtain ⟨file, hfile⟩ := Option.isSome_iff_exists.mp hnames
    have hgood : ∀ v, v = file ∨ Table.get? fields "directory" = some v → ∃ t, v = .string t := by
      refine fun v hv => htext v fun hbad => h ⟨fields, file, rfl, hfile, ?_⟩
      rcases hv with rfl | hv
      · exact .inl hbad
      · exact .inr ⟨v, hv, hbad⟩
    obtain ⟨t, rfl⟩ := hgood file (.inl rfl)
    obtain ⟨own, hown⟩ : ∃ own, (Table.get? fields "directory").getD (.text buildDirectory) =
        .string own := by
      cases hdirectory : Table.get? fields "directory" with
      | none => exact ⟨_, rfl⟩
      | some v => exact hgood v (.inr hdirectory)
    exact ⟨⟨fields, t.toText, own.toText⟩, rfl, ⟨t, hfile, rfl⟩, own, hown, rfl⟩
  | _ => cases hnames

/-- An entry that stops the collecting is mistyped, and this is not foreseen. -/
theorem of_unit?_eq_error (h : unit? buildDirectory entry = .error f) :
    Mistyped entry ∧ f.isForeseen = false := by
  constructor
  · by_contra hgood
    cases hnames : namesFile entry with
    | false => cases h.symm.trans (unit?_eq_none_iff.mpr hnames)
    | true =>
      obtain ⟨u, hu⟩ := exists_isUnit hnames hgood
      cases h.symm.trans (unit?_eq_some_iff.mpr hu)
  · unfold unit? at h
    split at h
    · split at h
      · cases h
      · split at h
        · cases h
        · exact Except.error.inj h ▸ rfl
        · exact Except.error.inj h ▸ rfl
    · cases h

/-- **Collecting** fails if an entry is mistyped, and this is not foreseen. -/
theorem of_collectUnits_eq_error (h : (collectUnits cwd buildDirectory units entries).1 = .error f) :
    (∃ entry ∈ entries, Mistyped entry) ∧ f.isForeseen = false := by
  induction entries generalizing units with
  | nil => cases h
  | cons entry rest ih =>
    rw [collectUnits] at h
    split at h
    · next f' hunit =>
      obtain rfl := Except.error.inj h
      obtain ⟨hmistyped, hf⟩ := of_unit?_eq_error hunit
      exact ⟨⟨entry, List.mem_cons_self, hmistyped⟩, hf⟩
    all_goals
      obtain ⟨⟨entry', hentry', hmistyped⟩, hf⟩ := ih h
      exact ⟨⟨entry', List.mem_cons_of_mem _ hentry', hmistyped⟩, hf⟩

theorem not_mistyped_of_forall₂ {us : List TranslationUnit}
    (h : List.Forall₂ (IsUnit buildDirectory) (entries.filter namesFile) us) :
    ∀ entry ∈ entries, ¬ Mistyped entry := by
  have hnamed : ∀ entry ∈ entries.filter namesFile, ¬ Mistyped entry := by
    generalize entries.filter namesFile = named at h
    induction h with
    | nil => exact List.forall_mem_nil _
    | cons hu _ ih => exact List.forall_mem_cons.mpr ⟨hu.not_mistyped, ih⟩
  intro entry hentry hmistyped
  exact hnamed entry (List.mem_filter.mpr ⟨hentry, hmistyped.namesFile⟩) hmistyped

theorem exists_forall₂_isUnit (buildDirectory : Text) (h : ∀ entry ∈ entries, ¬ Mistyped entry) :
    ∃ us, List.Forall₂ (IsUnit buildDirectory) (entries.filter namesFile) us := by
  induction entries with
  | nil => exact ⟨[], .nil⟩
  | cons entry rest ih =>
    obtain ⟨hentry, hrest⟩ := List.forall_mem_cons.mp h
    obtain ⟨us, hus⟩ := ih hrest
    cases hnames : namesFile entry with
    | false => exact ⟨us, by rwa [List.filter_cons_of_neg (by simp [hnames])]⟩
    | true =>
      obtain ⟨u, hu⟩ := exists_isUnit hnames hentry
      exact ⟨u :: us, by rw [List.filter_cons_of_pos hnames]; exact .cons hu hus⟩

/-! ### Reading the file -/

/-- The contents of a file **trip** the opening of a database if they are no UTF-8, if the document they
encode goes beyond a limit, or if it is a list with a mistyped entry. -/
inductive Trips (bytes : List UInt8) : Prop
  | notUtf8 (h : ∀ document, bytes ≠ Utf8.encode document)
  | limit {document : Text} {fault : Json.Fault} (h : bytes = Utf8.encode document)
      (hread : Json.read document.unifyLines = .error fault) (hlimit : fault.cause.isLimit = true)
  | mistyped {document : Text} {entries : List Json} (h : bytes = Utf8.encode document)
      (hread : Json.read document.unifyLines = .ok (.list entries))
      (hmistyped : ∃ entry ∈ entries, Mistyped entry)

/-- The list that a value is. -/
def listed (path : Text) : Json → Except OpenFault (List Json)
  | .list entries => .ok entries
  | _ => .error (.notList path)

/-- What comes of loading is told by the bytes in the file. -/
theorem load_cases (w : World) (path : Text) :
    (∃ refusal, w.read path = .error refusal ∧ load w path = .error (.ofRefusal path refusal)) ∨
    (∃ bytes, w.read path = .ok bytes ∧ (∀ document, bytes ≠ Utf8.encode document) ∧
      ∃ f, load w path = .error (.notUtf8 f)) ∨
    ∃ document, w.read path = .ok (Utf8.encode document) ∧
      load w path = (readDocument path document.unifyLines).bind (listed path) := by
  cases hread : w.read path with
  | error refusal => exact .inl ⟨refusal, rfl, by rw [load, hread]; rfl⟩
  | ok bytes =>
    cases hstrict : Utf8.strict bytes with
    | error f =>
      refine .inr (.inl ⟨bytes, rfl, fun document hbytes => ?_, f, ?_⟩)
      · cases hstrict.symm.trans (Utf8.strict_eq_ok_iff.mpr hbytes)
      · simp only [load, hread, Except.mapError, bind, Except.bind, hstrict]
    | ok document =>
      obtain rfl := Utf8.strict_eq_ok_iff.mp hstrict
      refine .inr (.inr ⟨document, rfl, ?_⟩)
      simp only [load, hread, Except.mapError, bind, Except.bind, hstrict]
      cases readDocument path document.unifyLines with
      | error f => rfl
      | ok v => cases v <;> rfl

/-- A fault in a document is foreseen, unless it is a limit. -/
theorem exists_readDocument_eq_error (path : Text) {document : Text} {fault : Json.Fault}
    (h : Json.read document = .error fault) :
    ∃ f, readDocument path document = .error f ∧ f.isForeseen = !fault.cause.isLimit := by
  obtain ⟨cause, rest⟩ := fault
  cases cause
  all_goals
    rw [readDocument, h]
    exact ⟨_, rfl, rfl⟩

/-- **Loading** succeeds if the file encodes a list. -/
theorem load_eq_ok_iff : load w path = .ok entries ↔ ∃ document,
    w.read path = .ok (Utf8.encode document) ∧ Json.read document.unifyLines = .ok (.list entries) := by
  obtain ⟨refusal, hread, hload⟩ | ⟨bytes, hread, hbytes, f, hload⟩ | ⟨document, hread, hload⟩ :=
    load_cases w path
  · simp [hread, hload]
  · simp [hread, hload, hbytes]
  · simp only [hread, hload, Except.ok.injEq, Utf8.encode_injective.eq_iff, exists_eq_left']
    cases hjson : Json.read document.unifyLines with
    | error fault =>
      obtain ⟨f, hf, -⟩ := exists_readDocument_eq_error path hjson
      rw [hf]
      exact ⟨nofun, nofun⟩
    | ok v =>
      rw [readDocument, hjson]
      cases v <;> simp [Except.bind, listed]

/-- Loading a file fails in a way that is not foreseen if the file is no UTF-8 or its document goes
beyond a limit. -/
theorem exists_load_eq_error_iff (hfile : w.isFile path = true) :
    (∃ f, load w path = .error f ∧ f.isForeseen = false) ↔
      ∃ bytes, w.read path = .ok bytes ∧ ((∀ document, bytes ≠ Utf8.encode document) ∨
        ∃ document fault, bytes = Utf8.encode document ∧
          Json.read document.unifyLines = .error fault ∧ fault.cause.isLimit = true) := by
  obtain ⟨refusal, hread, hload⟩ | ⟨bytes, hread, hbytes, f, hload⟩ | ⟨document, hread, hload⟩ :=
    load_cases w path
  · obtain ⟨e, rfl⟩ := World.exists_of_read_eq_error (World.isFit_of_isFile hfile) hread
    simp [hread, hload, OpenFault.ofRefusal, OpenFault.isForeseen]
  · simp [hread, hload, hbytes, OpenFault.isForeseen]
  · have hencoded : ¬ ∀ document', Utf8.encode document ≠ Utf8.encode document' :=
      fun h => h document rfl
    simp only [hread, hload, Except.ok.injEq, exists_eq_left', hencoded, false_or,
      Utf8.encode_injective.eq_iff, exists_and_left]
    cases hjson : Json.read document.unifyLines with
    | error fault =>
      obtain ⟨f, hf, hforeseen⟩ := exists_readDocument_eq_error path hjson
      simp [hf, hforeseen, Except.bind]
    | ok v =>
      rw [readDocument, hjson]
      cases v <;> simp [Except.bind, listed, OpenFault.isForeseen]

/-! ### Opening -/

/-- Opening fails in a way that is not foreseen if loading does or an entry is mistyped. -/
theorem exists_openIn_eq_error_iff :
    (∃ f, (openIn w directory timeout).1 = .error f ∧ f.isForeseen = false) ↔
      w.isDirectory directory = true ∧
      w.isFile (Path.join (Path.absolute w.cwd directory) fileName) = true ∧
      ((∃ f, load w (Path.join (Path.absolute w.cwd directory) fileName) = .error f ∧
          f.isForeseen = false) ∨
        ∃ entries, load w (Path.join (Path.absolute w.cwd directory) fileName) = .ok entries ∧
          ∃ entry ∈ entries, Mistyped entry) := by
  rw [openIn]
  cases hdirectory : w.isDirectory directory with
  | false => simp [OpenFault.isForeseen]
  | true =>
    cases hfile : w.isFile (Path.join (Path.absolute w.cwd directory) fileName) with
    | false => simp [hfile, OpenFault.isForeseen]
    | true =>
      cases hload : load w (Path.join (Path.absolute w.cwd directory) fileName) with
      | error f => simp [hfile, hload]
      | ok entries =>
        cases hcollect : collectUnits w.cwd (Path.absolute w.cwd directory) [] entries with
        | mk result log =>
        cases result with
        | error f =>
          have hmistyped := of_collectUnits_eq_error (congrArg Prod.fst hcollect)
          simpa [hfile, hload, hcollect] using iff_of_true hmistyped.2 hmistyped.1
        | ok units =>
          obtain ⟨⟨us, hus, -⟩, -⟩ := collectUnits_eq_ok_iff.mp hcollect
          simpa [hfile, hload, hcollect] using not_mistyped_of_forall₂ hus

/-- **When a database opens, and what can go wrong.**

A database opens just if its directory exists and the file in it can be read and is a JSON list in UTF-8
in which no entry is mistyped. Where it does not open, something is reported to be wrong with the
directory, with 1 for the exit code, unless the contents of the file trip the opening. The entries of an
open database that name a file are its units; the others are passed over, each with a warning. -/
theorem openIn_outcome (w : World) (directory : Text) (timeout : Number) :
    let path := Path.join (Path.absolute w.cwd directory) fileName
    let opened := openIn w directory timeout
    ((∃ db, opened.1 = .ok db) ↔ w.isDirectory directory = true ∧ ∃ document entries,
      w.read path = .ok (Utf8.encode document) ∧ Json.read document.unifyLines = .ok (.list entries) ∧
      ∀ entry ∈ entries, ¬ Mistyped entry) ∧
    ((∃ f, opened.1 = .error f ∧ f.isForeseen = false) ↔
      w.isDirectory directory = true ∧ ∃ bytes, w.read path = .ok bytes ∧ Trips bytes) ∧
    (∀ f, opened.1 = .error f → f.isForeseen = true →
      ∀ p, (CommandLine.stopEmissions p (.database f)).2 = 1) ∧
    ∀ db, opened.1 = .ok db → ∃ entries us, load w path = .ok entries ∧
      List.Forall₂ (IsUnit db.buildDirectory) (entries.filter namesFile) us ∧
      db.units = putUnits w.cwd [] us ∧
      opened.2 = (entries.filter fun entry => !namesFile entry).map passedOver ++ [db.loaded] := by
  intro path opened
  refine ⟨⟨?_, ?_⟩, exists_openIn_eq_error_iff.trans ⟨?_, ?_⟩, fun f _ hf p => ?_, fun db hdb => ?_⟩
  · rintro ⟨db, hdb⟩
    obtain ⟨entries, us, rfl, hdirectory, -, hload, hus, -⟩ := openIn_eq_ok_iff.mp (Prod.ext hdb rfl)
    obtain ⟨document, hread, hjson⟩ := load_eq_ok_iff.mp hload
    exact ⟨hdirectory, document, entries, hread, hjson, not_mistyped_of_forall₂ hus⟩
  · rintro ⟨hdirectory, document, entries, hread, hjson, hentries⟩
    obtain ⟨us, hus⟩ := exists_forall₂_isUnit (Path.absolute w.cwd directory) hentries
    have hopened : openIn w directory timeout = _ := openIn_eq_ok_iff.mpr ⟨entries, us, rfl, hdirectory,
      World.isFile_of_read hread, load_eq_ok_iff.mpr ⟨document, hread, hjson⟩, hus, rfl⟩
    exact ⟨_, congrArg Prod.fst hopened⟩
  · rintro ⟨hdirectory, hfile, hload | ⟨entries, hload, hmistyped⟩⟩
    · obtain ⟨bytes, hread, hbytes | ⟨document, fault, hbytes, hjson, hlimit⟩⟩ :=
        (exists_load_eq_error_iff hfile).mp hload
      · exact ⟨hdirectory, bytes, hread, .notUtf8 hbytes⟩
      · exact ⟨hdirectory, bytes, hread, .limit hbytes hjson hlimit⟩
    · obtain ⟨document, hread, hjson⟩ := load_eq_ok_iff.mp hload
      exact ⟨hdirectory, _, hread, .mistyped rfl hjson hmistyped⟩
  · rintro ⟨hdirectory, bytes, hread, htrips⟩
    have hfile := World.isFile_of_read hread
    refine ⟨hdirectory, hfile, ?_⟩
    cases htrips with
    | notUtf8 hbytes => exact .inl ((exists_load_eq_error_iff hfile).mpr ⟨bytes, hread, .inl hbytes⟩)
    | @limit document fault hbytes hjson hlimit =>
      exact .inl ((exists_load_eq_error_iff hfile).mpr
        ⟨bytes, hread, .inr ⟨document, fault, hbytes, hjson, hlimit⟩⟩)
    | @mistyped document entries hbytes hjson hmistyped =>
      exact .inr ⟨entries, load_eq_ok_iff.mpr ⟨document, hbytes ▸ hread, hjson⟩, hmistyped⟩
  · rw [CommandLine.stopEmissions, if_pos hf]
  · obtain ⟨entries, us, rfl, -, -, hload, hus, hlog⟩ := openIn_eq_ok_iff.mp (Prod.ext hdb rfl)
    exact ⟨entries, us, hload, hus, rfl, hlog⟩

/-- **Two databases that trip the opening**: a file that is a number, in front of an entry that could be
used, and a byte that begins no character. Neither fault is foreseen. -/
theorem openIn_trips :
    let w : World := ⟨"/w", [
      ("/b/compile_commands.json", Utf8.encode "[\x7b\"file\": 5\x7d, \x7b\"file\": \"a.cpp\"\x7d]"),
      ("/c/compile_commands.json", [0x5B, 0xFF, 0x5D])], [], [], [], [], [], [], [], .standard⟩
    let fault (directory : Text) : Option (Bool × Text) :=
      match (openIn w directory standardTimeout).1 with
      | .error f => some (f.isForeseen, f.message)
      | .ok _ => none
    fault "/b" =
        some (false, "join() argument must be str, bytes, or os.PathLike object, not 'int'".toList) ∧
      fault "/c" =
        some (false, "'utf-8' codec can't decode byte 0xff in position 1: invalid start byte".toList) := by
  decide +kernel

end Database

end IncludeTrace
