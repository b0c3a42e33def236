import IncludeTrace.Database.Basic
import IncludeTrace.Proofs.Command.Wrappers
import IncludeTrace.Proofs.Table
import IncludeTrace.Proofs.World.Requests
import IncludeTrace.World.Standard

/-!
# Entries with wrappers

Putting a wrapper in front of the command of an entry adds a word in front of its words
(`Database.entryWords_wrapped`). What a database makes of the entry stays what it was: the command of a
trace, what comes of running it, and the directories to search (`Database.wrapper_transparent`).

There are exceptions, because the style of the driver is told by what the command begins with, and
wrappers by the name behind the last slash. A command that is one text is split by the convention of
shells behind a wrapper, which makes a difference to quotes and backslashes
(`Database.wrapper_backslashes`). The directories named by `/I` are not found behind a wrapper
(`Database.wrapper_hides_directories`). And a wrapper behind a backslash is taken for the compiler
(`Database.wrapper_behind_backslash`).
-/

namespace IncludeTrace

open Command

namespace Database

variable {wrapper : Text} {fields : Table Json Letters}

/-! ### Wrapping a command -/

/-- The value of a member with a wrapper in front of the command, if it is the one that holds the
command. -/
def wrapValue (wrapper : Text) (name : Letters) (v : Json) : Json :=
  if name = "arguments" then
    match v with
    | .list (v :: vs) => .list (.text wrapper :: v :: vs)
    | v => v
  else if name = "command" then
    match v with
    | .string command => .string (Letters.ofText (wrapper ++ [' ']) ++ command)
    | v => v
  else v

/-- The members of an entry with a wrapper in front of the command. -/
def wrapped (wrapper : Text) (fields : Table Json Letters) : Table Json Letters :=
  fields.map fun member => (member.1, wrapValue wrapper member.1 member.2)

theorem get?_wrapped (wrapper : Text) (fields : Table Json Letters) (name : Letters) :
    (wrapped wrapper fields).get? name = (fields.get? name).map (wrapValue wrapper name) :=
  Table.get?_map _ fields name

/-- A value that does not hold the command is left alone. -/
theorem wrapValue_of_isHollow {v : Json} (h : v.isHollow = true) :
    wrapValue wrapper "arguments" v = v := by
  unfold wrapValue
  rw [if_pos rfl]
  split
  · cases h
  · rfl

/-- The ways in which the command of an entry **takes a wrapper** as one more word. A list of words
takes every wrapper. A text takes plain words; it has to be split by the convention of shells anyway, or
have nothing in which the conventions differ. -/
inductive TakesWrapper (wrapper : Text) (fields : Table Json Letters) : Prop
  | arguments {elements : List Json} (hne : elements ≠ [])
      (h : fields.get? "arguments" = some (.list elements)) : TakesWrapper wrapper fields
  | command {command : Letters} (hplain : IsPlainWord wrapper)
      (hhollow : ∀ v, fields.get? "arguments" = some v → v.isHollow = true)
      (h : fields.get? "command" = some (.string command))
      (hsplit : isMsvcDriver (command.toText.takeWhile (· ≠ ' ')) = false ∨
        Unquoted command.toText) : TakesWrapper wrapper fields

theorem splitCommand_eq_shellWords {command : Text}
    (h : isMsvcDriver (command.takeWhile (· ≠ ' ')) = false ∨ Unquoted command) :
    splitCommand command = shellWords command := by
  rw [splitCommand]
  split
  · next hmsvc => exact driverWords_eq_shellWords (h.resolve_left (ne_false_of_eq_true hmsvc))
  · rfl

theorem splitCommand_cons (hwrapper : isWrapper wrapper = true) (hplain : IsPlainWord wrapper)
    (command : Text) : splitCommand (wrapper ++ ' ' :: command) =
      (shellWords command).map (wrapper :: ·) := by
  have hword : (wrapper ++ ' ' :: command).takeWhile (· ≠ ' ') = wrapper := by
    rw [List.takeWhile_append_of_pos]
    · simp
    · rintro c hc
      have hseparator := hplain.whole c hc
      simp only [isSeparator, Bool.or_eq_false_iff, decide_eq_false_iff_not] at hseparator
      simpa using hseparator.1.1.1
  rw [splitCommand, hword, isMsvcDriver_of_isWrapper hwrapper, if_neg (by decide),
    shellWords_cons hplain]

/-- A list of words is taken as it stands. -/
theorem entryWords_of_list {elements : List Json} (hne : elements ≠ [])
    (h : fields.get? "arguments" = some (.list elements)) :
    entryWords fields = .ok (elements.map Json.display) := by
  have hhollow : (Json.list elements).isHollow = false := by simpa [Json.isHollow] using hne
  rw [entryWords, h]
  simp only [hhollow, Bool.false_eq_true, if_false, listedWords?]

/-- Without a list of words the text of the command is split. -/
theorem entryWords_of_text {command : Letters}
    (hhollow : ∀ v, fields.get? "arguments" = some v → v.isHollow = true)
    (h : fields.get? "command" = some (.string command)) :
    entryWords fields = (splitCommand command.toText).mapError .split := by
  have hcommand : commandWords ((fields.get? "command").getD (.text [])) =
      (splitCommand command.toText).mapError .split := by
    rw [h]
    rfl
  rw [entryWords, hcommand]
  cases hv : fields.get? "arguments" with
  | none => rfl
  | some v => simp only [hhollow v hv, if_true]

/-- **Wrapping a command puts a word in front of its words.** -/
theorem entryWords_wrapped (hwrapper : isWrapper wrapper = true) (h : TakesWrapper wrapper fields) :
    entryWords (wrapped wrapper fields) = (entryWords fields).map (wrapper :: ·) := by
  cases h with
  | @arguments elements hne h =>
    obtain ⟨v, vs, rfl⟩ := List.exists_cons_of_ne_nil hne
    have hwrapped : (wrapped wrapper fields).get? "arguments" =
        some (.list (.text wrapper :: v :: vs)) := by
      rw [get?_wrapped, h]
      rfl
    have hdisplay : (Json.text wrapper).display = wrapper := Letters.toText_ofText wrapper
    rw [entryWords_of_list hne h, entryWords_of_list (List.cons_ne_nil _ _) hwrapped, List.map_cons,
      hdisplay]
    rfl
  | @command command hplain hhollow h hsplit =>
    have hcommand : (wrapped wrapper fields).get? "command" =
        some (.string (Letters.ofText (wrapper ++ [' ']) ++ command)) := by
      rw [get?_wrapped, h]
      rfl
    have harguments : ∀ v, (wrapped wrapper fields).get? "arguments" = some v →
        v.isHollow = true := by
      intro v hv
      rw [get?_wrapped, Option.map_eq_some_iff] at hv
      obtain ⟨u, hu, rfl⟩ := hv
      rw [wrapValue_of_isHollow (hhollow u hu)]
      exact hhollow u hu
    have htext : Letters.toText (Letters.ofText (wrapper ++ [' ']) ++ command) =
        wrapper ++ ' ' :: command.toText := by
      have happend : Letters.toText (Letters.ofText (wrapper ++ [' ']) ++ command) =
          Letters.toText (Letters.ofText (wrapper ++ [' '])) ++ command.toText := List.map_append
      rw [happend, Letters.toText_ofText, List.append_assoc]
      rfl
    rw [entryWords_of_text harguments hcommand, entryWords_of_text hhollow h, htext,
      splitCommand_cons hwrapper hplain, splitCommand_eq_shellWords hsplit]
    cases shellWords command.toText <;> rfl

/-! ### Wrapping an entry of a database -/

/-- The database with a unit stored under a key whose command has a wrapper in front. -/
def wrap (db : Database) (key : Text) (u : TranslationUnit) (wrapper : Text) : Database :=
  { db with units := db.units.put key { u with fields := wrapped wrapper u.fields } }

@[simp]
theorem flags_wrap (db : Database) (key : Text) (u : TranslationUnit) (wrapper : Text) :
    (db.wrap key u wrapper).flags = db.flags := rfl

/-- A path names the wrapped unit if it named the unit, and otherwise what it named. -/
theorem find_wrap {db : Database} {key : Text} {u : TranslationUnit}
    (hu : db.units.get? key = some u) (wrapper cwd path : Text) :
    (db.find cwd path = .ok u ∧ (db.wrap key u wrapper).find cwd path =
      .ok { u with fields := wrapped wrapper u.fields }) ∨
    (db.wrap key u wrapper).find cwd path = db.find cwd path := by
  simp only [find, wrap, Table.get?_put]
  by_cases hsource : Command.isSource path = true
  · by_cases hkey : key = Path.key cwd path
    · subst hkey
      simp [hsource, hu]
    · simp [hkey]
  · simp [hsource]

/-- The trace command of a unit is made of its words. -/
theorem traceCommand_of_find {db : Database} {cwd path : Text} {u : TranslationUnit}
    (h : db.find cwd path = .ok u) : (db.traceCommand cwd path).1 =
      ((entryWords u.fields).mapError .entry).bind fun words =>
        match traceCommand? words ((db.flags.get? (Path.key cwd path)).getD false) with
        | none => .error .noCompiler
        | some command => .ok (command, u.directory) := by
  simp only [traceCommand, h]
  cases entryWords u.fields with
  | error f => rfl
  | ok words =>
    simp only [Except.mapError, Except.bind]
    cases traceCommand? words ((db.flags.get? (Path.key cwd path)).getD false) <;> rfl

/-- The directories that a unit searches are found in its words. -/
theorem directories_of_find {db : Database} {cwd path : Text} {u : TranslationUnit}
    (h : db.find cwd path = .ok u) : db.directories cwd path =
      ((entryWords u.fields).mapError .entry).map fun words =>
        searchDirectories cwd words u.directory := by
  have hbind : db.directories cwd path = do
      let words ← (entryWords u.fields).mapError .entry
      return searchDirectories cwd words u.directory := by
    rw [directories, h]
    rfl
  rw [hbind]
  cases entryWords u.fields <;> rfl

/-- What comes of a run depends on the trace command, and not on what is said about it. -/
theorem run_congr (db db' : Database) {w : World} {path : Text} (htimeout : db'.timeout = db.timeout)
    (h : (db'.traceCommand w.cwd path).1 = (db.traceCommand w.cwd path).1) :
    (db'.run w path).outcome = (db.run w path).outcome ∧
      (db'.run w path).world = (db.run w path).world := by
  rw [run, run]
  generalize db'.traceCommand w.cwd path = command' at h ⊢
  generalize db.traceCommand w.cwd path = command at h ⊢
  obtain ⟨result, log⟩ := command
  obtain ⟨result', log'⟩ := command'
  obtain rfl : result' = result := h
  rcases result' with f | ⟨command, directory⟩
  · exact ⟨rfl, rfl⟩
  · simp only [htimeout]
    split
    · exact ⟨rfl, rfl⟩
    · obtain ⟨-, reason, hrun⟩ | ⟨-, hrun⟩ := World.run_cases w ⟨command, directory, db.timeout⟩
      · rw [hrun]
        exact ⟨rfl, rfl⟩
      · rw [hrun]
        exact ⟨rfl, rfl⟩

/-- **Wrappers are transparent**, as far as the style of the driver is told alike.

Let a wrapper that begins with no flag be put in front of the command of a unit that takes it. Then for
every path, and whether reports are switched on or not, the trace command is what it was, or fails as
it did; and so do the outcome of running it and the world afterwards. The directories to search are what
they were too, provided that the command is not begun by a driver of the MSVC style or no word of it
begins with `/I`. -/
theorem wrapper_transparent (db : Database) (w : World) (key : Text) (u : TranslationUnit)
    (wrapper : Text) (hu : db.units.get? key = some u) (hwrapper : isWrapper wrapper = true)
    (htakes : TakesWrapper wrapper u.fields) (path : Text) :
    ((db.wrap key u wrapper).traceCommand w.cwd path).1 = (db.traceCommand w.cwd path).1 ∧
    ((db.wrap key u wrapper).run w path).outcome = (db.run w path).outcome ∧
    ((db.wrap key u wrapper).run w path).world = (db.run w path).world ∧
    ((∀ f ∈ searchFlags [], f.isPrefixOf wrapper = false) →
      (∀ words, entryWords u.fields = .ok words →
        searchFlags words = searchFlags [] ∨ ∀ word ∈ words, "/I".toList.isPrefixOf word = false) →
      (db.wrap key u wrapper).directories w.cwd path = db.directories w.cwd path) := by
  have hwrapped := entryWords_wrapped hwrapper htakes
  have hfind := find_wrap hu wrapper w.cwd path
  have htrace : ((db.wrap key u wrapper).traceCommand w.cwd path).1 =
      (db.traceCommand w.cwd path).1 := by
    rcases hfind with ⟨hold, hnew⟩ | hsame
    · rw [traceCommand_of_find hold, traceCommand_of_find hnew, hwrapped]
      cases entryWords u.fields with
      | error f => rfl
      | ok words =>
        simp only [Except.map, Except.mapError, Except.bind, traceCommand?_cons hwrapper,
          flags_wrap]
    · simp only [traceCommand, hsame, flags_wrap]
  obtain ⟨houtcome, hworld⟩ := run_congr db (db.wrap key u wrapper) rfl htrace
  refine ⟨htrace, houtcome, hworld, fun hflag hmsvc => ?_⟩
  rcases hfind with ⟨hold, hnew⟩ | hsame
  · rw [directories_of_find hold, directories_of_find hnew, hwrapped]
    cases hwords : entryWords u.fields with
    | error f => rfl
    | ok words =>
      have hsearch := searchDirectories_cons hwrapper hflag (hmsvc words hwords) w.cwd u.directory
      exact congrArg Except.ok hsearch
  · simp only [directories, hsame]

/-- A command in one text that quotes a directory, with a wrapper that is named by its path. -/
theorem wrapper_transparent_quoted :
    let u : TranslationUnit :=
      ⟨[("command", .text "clang++ -I\"x y\" /Iz -c a.cpp")], "a.cpp", "/w"⟩
    let db : Database := ⟨"/b", "/b/compile_commands.json", .whole 300, [("/w/a.cpp", u)],
      [("/w/a.cpp", true)]⟩
    let w : World := ⟨"/w", [], [], ["clang++"], [], [], [], [], [], .standard⟩
    let db' := db.wrap "/w/a.cpp" u "/usr/bin/CCache"
    (db'.traceCommand w.cwd "a.cpp").1 = (db.traceCommand w.cwd "a.cpp").1 ∧
      (db'.run w "a.cpp").outcome = (db.run w "a.cpp").outcome ∧
      (db'.run w "a.cpp").world = (db.run w "a.cpp").world ∧
      (db'.directories w.cwd "a.cpp").toOption = some ["/w/x y".toList] := by
  intro u db w db'
  have htakes : TakesWrapper "/usr/bin/CCache" u.fields :=
    .command (by decide +kernel) nofun rfl (.inl (by decide +kernel))
  obtain ⟨htrace, houtcome, hworld, hdirectories⟩ := wrapper_transparent db w "/w/a.cpp" u
    "/usr/bin/CCache" rfl (by decide +kernel) htakes "a.cpp"
  have hfirst : (entryWords u.fields).toOption.map searchFlags = some (searchFlags []) := by
    decide +kernel
  refine ⟨htrace, houtcome, hworld, ?_⟩
  rw [hdirectories (by decide +kernel) fun words hwords => .inl ?_]
  · decide +kernel
  · rw [hwords] at hfirst
    exact Option.some.inj hfirst

/-- **The directories of `/I` are lost behind a wrapper.** -/
theorem wrapper_hides_directories :
    let u : TranslationUnit :=
      ⟨[("arguments", .list [.text "cl", .text "/Iinc", .text "a.cpp"])], "a.cpp", "/w"⟩
    let db : Database := ⟨"/b", "/b/compile_commands.json", .whole 300, [("/w/a.cpp", u)], []⟩
    isWrapper "ccache" = true ∧
      (db.directories "/w" "a.cpp").toOption = some ["/w/inc".toList] ∧
      ((db.wrap "/w/a.cpp" u "ccache").directories "/w" "a.cpp").toOption = some [] := by
  decide +kernel

/-- **Backslashes are lost behind a wrapper**, where a driver of the MSVC style would keep them. -/
theorem wrapper_backslashes :
    let u : TranslationUnit := ⟨[("command", .text "cl /c C:\\a.cpp")], "C:\\a.cpp", "/w"⟩
    let db : Database := ⟨"/b", "/b/compile_commands.json", .whole 300, [("c:/a.cpp", u)], []⟩
    (db.traceCommand "/w" "C:\\a.cpp").1.toOption =
        some (["cl".toList, "C:\\a.cpp".toList], "/w".toList) ∧
      ((db.wrap "c:/a.cpp" u "ccache").traceCommand "/w" "C:\\a.cpp").1.toOption =
        some (["cl".toList, "C:a.cpp".toList], "/w".toList) := by
  decide +kernel

/-- **A wrapper behind a backslash is no wrapper**: the trace command keeps it as its compiler. -/
theorem wrapper_behind_backslash :
    let u : TranslationUnit :=
      ⟨[("arguments", .list [.text "clang", .text "a.cpp"])], "a.cpp", "/w"⟩
    let db : Database := ⟨"/b", "/b/compile_commands.json", .whole 300, [("/w/a.cpp", u)], []⟩
    isMsvcDriver "C:\\bin\\cl" = true ∧
      ((db.wrap "/w/a.cpp" u "C:\\bin\\ccache").traceCommand "/w" "a.cpp").1.toOption =
        some (["C:\\bin\\ccache".toList, "clang".toList, "a.cpp".toList], "/w".toList) := by
  decide +kernel

end Database

end IncludeTrace
