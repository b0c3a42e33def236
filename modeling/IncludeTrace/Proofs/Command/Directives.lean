import IncludeTrace.Proofs.Command.Wrappers

/-!
# Search directories of written commands

A command is written from arguments: plain words, and directives that name a search directory, either in
a word of its own behind the flag or in the same word. Reading the words one after another gets back the
directories that were written (`Command.directives_written`): no flag is the beginning of another one, so a
directive is read under its own flag, and the word behind a flag is its directory even if it looks like a
flag itself. `Command.searchDirectories_written` says what becomes of the directories, and that nothing
else in the command matters.

The flags of a command are told by its first word as it is written. That is the program as a rule; if it is
a directive, then its spelling may decide about the flags, because `-I/bin/cl` ends in the name of a driver
and `-I` does not.
-/

namespace IncludeTrace.Command

/-- An **argument** of a command: a word, or a directive with its directory in a word of its own or in
the word of the flag. -/
inductive Argument
  | word (w : Text)
  | apart (flag directory : Text)
  | joined (flag directory : Text)
  deriving DecidableEq

namespace Argument

/-- The words that an argument is written as. -/
def words : Argument → List Text
  | word w => [w]
  | apart flag directory => [flag, directory]
  | joined flag directory => [flag ++ directory]

/-- The directory that an argument names. -/
def directory? : Argument → Option Text
  | word _ => none
  | apart _ directory | joined _ directory => some directory

/-- An argument **fits** flags if it is a word that begins with none of them, or a directive with one of
them and a directory that is not empty. -/
def Fits (flags : List Text) : Argument → Prop
  | word w => ∀ f ∈ flags, ¬ f <+: w
  | apart flag directory | joined flag directory => flag ∈ flags ∧ directory ≠ []

instance (flags : List Text) : DecidablePred (Fits flags)
  | word w => inferInstanceAs (Decidable (∀ f ∈ flags, ¬ f <+: w))
  | apart flag directory => inferInstanceAs (Decidable (flag ∈ flags ∧ directory ≠ []))
  | joined flag directory => inferInstanceAs (Decidable (flag ∈ flags ∧ directory ≠ []))

end Argument

/-- The words of a command that is written from arguments; a flag with nothing behind it may come
last. -/
def written (arguments : List Argument) (lone : Option Text) : List Text :=
  arguments.flatMap Argument.words ++ lone.toList

variable {flags : List Text} {flag directory : Text}

/-! ### Directives -/

/-- No search flag is the beginning of another one. -/
theorem searchFlags_prefixFree (words : List Text) :
    ∀ f ∈ searchFlags words, ∀ f' ∈ searchFlags words, f <+: f' → f = f' := by
  rcases searchFlags_cases words with h | h
  all_goals
    rw [h]
    decide

/-- A directive in one word is read under its own flag. -/
theorem joined?_append (hfree : ∀ f ∈ flags, ∀ f' ∈ flags, f <+: f' → f = f') (hflag : flag ∈ flags)
    (hne : directory ≠ []) : joined? flags (flag ++ directory) = some directory := by
  have hothers : ∀ f ∈ flags, f <+: flag ++ directory → f = flag := by
    intro f hf hbegins
    rcases List.prefix_or_prefix_of_prefix hbegins (List.prefix_append flag directory) with h | h
    · exact hfree f hf flag hflag h
    · exact (hfree flag hflag f hf h).symm
  rw [joined?, Option.map_eq_some_iff]
  cases hfind : flags.find? fun f => f.isPrefixOf (flag ++ directory) &&
      f.length < (flag ++ directory).length with
  | none =>
    have hself := List.find?_eq_none.mp hfind flag hflag
    simp [List.length_pos_iff, hne] at hself
  | some f =>
    have hbegins : f <+: flag ++ directory := by
      have hholds := List.find?_some hfind
      simp only [Bool.and_eq_true, List.isPrefixOf_iff_prefix] at hholds
      exact hholds.1
    obtain rfl := hothers f (List.mem_of_find?_eq_some hfind) hbegins
    exact ⟨f, rfl, List.drop_left⟩

/-- So it names its directory, whatever stands behind it. -/
theorem directives_joined (hfree : ∀ f ∈ flags, ∀ f' ∈ flags, f <+: f' → f = f')
    (hflag : flag ∈ flags) (hne : directory ≠ []) (words : List Text) :
    directives flags ((flag ++ directory) :: words) = directory :: directives flags words := by
  have hjoined := joined?_append hfree hflag hne
  have hnot : flag ++ directory ∉ flags := by
    intro hmem
    have hsame := hfree flag hflag _ hmem (List.prefix_append flag directory)
    exact hne (List.self_eq_append_right.mp hsame)
  cases words with
  | nil => simp [directives, hjoined]
  | cons next rest => simp [directives, hjoined, hnot]

/-- **The directories of a written command** are those of its directives, in order. -/
theorem directives_written (hfree : ∀ f ∈ flags, ∀ f' ∈ flags, f <+: f' → f = f')
    {arguments : List Argument} (hfits : ∀ a ∈ arguments, a.Fits flags) {lone : Option Text}
    (hlone : ∀ f ∈ lone, f ∈ flags) :
    directives flags (written arguments lone) = arguments.filterMap Argument.directory? := by
  induction arguments with
  | nil =>
    cases lone with
    | none => rfl
    | some flag =>
      -- nothing is longer than the flag and begins it
      have hnone : joined? flags flag = none := by
        refine joined?_eq_none_iff.mpr fun f hf hbegins => ?_
        obtain rfl := hfree f hf flag (hlone flag rfl) hbegins
        exact Nat.le_refl _
      simp [written, directives, hnone]
  | cons a rest ih =>
    obtain ⟨ha, hrest⟩ := List.forall_mem_cons.mp hfits
    have hwritten : written (a :: rest) lone = a.words ++ written rest lone := by
      rw [written, List.flatMap_cons, List.append_assoc, written]
    rw [hwritten, List.filterMap_cons]
    cases a with
    | word w =>
      have hw : ∀ f ∈ flags, f.isPrefixOf w = false := fun f hf => by
        simpa [List.isPrefixOf_iff_prefix, ← Bool.not_eq_true] using ha f hf
      exact (directives_cons hw _).trans (ih hrest)
    | apart flag directory =>
      show directives flags (flag :: directory :: written rest lone) = _
      rw [directives, if_pos (List.contains_iff_mem.mpr ha.1), ih hrest]
      rfl
    | joined flag directory =>
      exact (directives_joined hfree ha.1 ha.2 _).trans (congrArg (directory :: ·) (ih hrest))

/-! ### Directories with one key -/

/-- The directories in front of which none has the same key. -/
def foremost (cwd : Text) (ds : List Text) : List Text :=
  (ds.zipIdx.filter fun e : Text × ℕ =>
    decide (∀ d ∈ ds.take e.2, Path.key cwd d ≠ Path.key cwd e.1)).map Prod.fst

/-- What is kept of directories depends on those in front, not on those that were kept. -/
theorem distinctBy_eq_foremost (cwd : Text) (ds : List Text) :
    distinctBy cwd [] ds = foremost cwd ds := by
  have hrun : ∀ before seen : List Text, (∀ key, key ∈ seen ↔ key ∈ before.map (Path.key cwd)) →
      distinctBy cwd seen ds = ((ds.zipIdx before.length).filter fun e : Text × ℕ =>
        decide (∀ d ∈ (before ++ ds).take e.2, Path.key cwd d ≠ Path.key cwd e.1)).map Prod.fst := by
    induction ds with
    | nil => exact fun _ _ _ => rfl
    | cons d rest ih =>
      intro before seen hseen
      have hmet : Path.key cwd d ∈ seen ↔
          ¬ ∀ d' ∈ (before ++ d :: rest).take before.length, Path.key cwd d' ≠ Path.key cwd d := by
        rw [hseen, List.take_left]
        simp
      have hnext := ih (before ++ [d])
      rw [List.length_append, List.length_singleton, List.append_assoc, List.singleton_append] at hnext
      rw [distinctBy, List.zipIdx_cons]
      by_cases hd : Path.key cwd d ∈ seen
      · rw [if_pos (List.contains_iff_mem.mpr hd), List.filter_cons_of_neg (by simpa using hmet.mp hd)]
        refine hnext seen fun key => ?_
        rw [hseen, List.map_append, List.mem_append, List.map_singleton, List.mem_singleton]
        refine ⟨.inl, fun h => h.elim id ?_⟩
        rintro rfl
        exact (hseen _).mp hd
      · have hfirst := not_not.mp (mt hmet.mpr hd)
        rw [if_neg (by simpa using hd), List.filter_cons_of_pos (by simpa using hfirst), List.map_cons]
        refine congrArg (d :: ·) (hnext _ fun key => ?_)
        rw [List.mem_cons, hseen, List.map_append, List.mem_append, List.map_singleton,
          List.mem_singleton, or_comm]
  exact hrun [] [] fun key => by simp

/-- The keys of what is kept are distinct. -/
theorem nodup_distinctBy (cwd : Text) (seen ds : List Text) :
    ((distinctBy cwd seen ds).map (Path.key cwd)).Nodup ∧
      ∀ d ∈ distinctBy cwd seen ds, Path.key cwd d ∉ seen := by
  induction ds generalizing seen with
  | nil => simp [distinctBy]
  | cons d rest ih =>
    rw [distinctBy]
    split
    · exact ih seen
    · next hd =>
      obtain ⟨hnodup, hnew⟩ := ih (Path.key cwd d :: seen)
      refine ⟨?_, List.forall_mem_cons.mpr ⟨by simpa using hd, fun e he hmem =>
        hnew e he (List.mem_cons_of_mem _ hmem)⟩⟩
      rw [List.map_cons, List.nodup_cons]
      refine ⟨fun hmem => ?_, hnodup⟩
      obtain ⟨e, he, hkey⟩ := List.mem_map.mp hmem
      exact hnew e he (hkey ▸ List.mem_cons_self)

/-! ### Written commands -/

/-- **The search directories of a written command are the directories of its directives.**

Let a command be written from arguments that fit its flags, perhaps with a lone flag at the end. Its
search directories are the directories of its directives, in order: absolute ones as they stand, others
in normal form as seen from the working directory; each one is left out in front of which there is one
with the same key. So their keys are distinct, and another command whose arguments fit its own flags has
the same search directories if its directives name the same directories, whether in words of their own or
not. -/
theorem searchDirectories_written (cwd working : Text) (arguments : List Argument) (lone : Option Text)
    (hfits : ∀ a ∈ arguments, a.Fits (searchFlags (written arguments lone)))
    (hlone : ∀ f ∈ lone, f ∈ searchFlags (written arguments lone)) :
    let ds := (arguments.filterMap Argument.directory?).map fun d =>
      if Path.isAbsolute d then d else Path.normal (Path.join working d)
    let found := searchDirectories cwd (written arguments lone) working
    found = foremost cwd ds ∧ (found.map (Path.key cwd)).Nodup ∧
      ∀ (arguments' : List Argument) (lone' : Option Text),
        (∀ a ∈ arguments', a.Fits (searchFlags (written arguments' lone'))) →
        (∀ f ∈ lone', f ∈ searchFlags (written arguments' lone')) →
        arguments'.filterMap Argument.directory? = arguments.filterMap Argument.directory? →
        searchDirectories cwd (written arguments' lone') working = found := by
  have hfound : ∀ (arguments : List Argument) (lone : Option Text),
      (∀ a ∈ arguments, a.Fits (searchFlags (written arguments lone))) →
      (∀ f ∈ lone, f ∈ searchFlags (written arguments lone)) →
      searchDirectories cwd (written arguments lone) working =
        distinctBy cwd [] ((arguments.filterMap Argument.directory?).map (fromWorking working)) := by
    intro arguments lone hfits hlone
    have hnamed : ∀ d ∈ arguments.filterMap Argument.directory?, d ≠ [] := by
      intro d hd
      obtain ⟨a, ha, hdirectory⟩ := List.mem_filterMap.mp hd
      have hfit := hfits a ha
      cases a with
      | word w => cases hdirectory
      | apart flag directory | joined flag directory =>
        obtain rfl := Option.some.inj hdirectory
        exact hfit.2
    rw [searchDirectories, directives_written (searchFlags_prefixFree _) hfits hlone,
      List.filter_eq_self.mpr (by simpa using hnamed)]
  intro ds found
  have hds : found = distinctBy cwd [] ds := hfound arguments lone hfits hlone
  refine ⟨hds.trans (distinctBy_eq_foremost cwd ds), ?_, fun arguments' lone' hfits' hlone' hsame => ?_⟩
  · rw [hds]
    exact (nodup_distinctBy cwd [] ds).1
  · rw [hfound arguments' lone' hfits' hlone', hsame]
    exact hds.symm

/-- A directory that looks like a flag, two spellings of one directory and a lone flag; then the same
directories, each spelled the other way. -/
theorem searchDirectories_written_mixed :
    let arguments : List Argument := [.word "CL.exe".toList, .joined "/I".toList "inc".toList,
      .word "-c".toList, .apart "-I".toList "-isystem".toList, .joined "-isystem".toList "C:\\sys".toList,
      .apart "/I".toList "x\\../INC".toList, .apart "-iquote".toList "./Inc/".toList]
    let arguments' : List Argument := [.word "cl".toList, .apart "/I".toList "inc".toList,
      .joined "-I".toList "-isystem".toList, .apart "-isystem".toList "C:\\sys".toList,
      .joined "/I".toList "x\\../INC".toList, .joined "-iquote".toList "./Inc/".toList]
    let found : List Text := ["/w/inc".toList, "/w/-isystem".toList, "C:\\sys".toList]
    (∀ a ∈ arguments, a.Fits (searchFlags (written arguments (some "/I".toList)))) ∧
      searchDirectories ['/'] (written arguments (some "/I".toList)) "/w".toList = found ∧
      searchDirectories ['/'] (written arguments' none) "/w".toList = found := by
  intro arguments arguments' found
  have hfits : ∀ a ∈ arguments, a.Fits (searchFlags (written arguments (some "/I".toList))) := by
    decide +kernel
  have hlone : ∀ f ∈ some "/I".toList, f ∈ searchFlags (written arguments (some "/I".toList)) := by
    decide +kernel
  obtain ⟨hforemost, -, hsame⟩ :=
    searchDirectories_written ['/'] "/w".toList arguments _ hfits hlone
  have hfound : searchDirectories ['/'] (written arguments (some "/I".toList)) "/w".toList = found :=
    hforemost.trans (by decide +kernel)
  refine ⟨hfits, hfound, (hsame arguments' none ?_ ?_ rfl).trans hfound⟩
  · decide +kernel
  · decide +kernel

end IncludeTrace.Command
