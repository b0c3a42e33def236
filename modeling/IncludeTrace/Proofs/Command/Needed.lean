import IncludeTrace.Proofs.Command.Directives
import IncludeTrace.Proofs.Command.Output

/-!
# What a trace command keeps for the preprocessor

A trace command is to find the same includes as its command, so it has to keep the directories to search
and the sources. No output flag is a directive or a source. What can be lost is a word that is taken for
the name behind an output flag, and nothing else: `Command.traceCommand?_keeps_needed` says so for drivers
of the MSVC style.

These drivers do not have all of the flags that are taken for output flags. To them `-MT` chooses a
library and has no name behind it, so a directory or a source that follows is lost
(`Command.traceCommand?_loses_needed`).
-/

namespace IncludeTrace.Command

/-- The **names** among words: those that are left out with the output flag in front of them; `skip` says
that the first word is one. -/
def outputNames (skip : Bool) : List Text → List Text
  | [] => []
  | word :: rest =>
    if skip then word :: outputNames false rest
    else outputNames (outputFlagsWithName.contains word) rest

/-- A **source argument** names a file that can be compiled on its own, and cannot be taken for a flag. -/
def isSourceArgument (word : Text) : Bool :=
  isSource word && !word.startsWith ['-'] && !word.startsWith ['/']

variable {α : Type} {msvc skip : Bool} {flags words : List Text} {word : Text}

/-! ### What is left out -/

theorem withoutOutput_sublist (msvc skip : Bool) (words : List Text) :
    (withoutOutput msvc skip words).Sublist words := by
  induction words generalizing skip with
  | nil => exact List.nil_sublist _
  | cons word rest ih =>
    rw [withoutOutput]
    split
    · exact (ih _).cons word
    · split
      · exact (ih _).cons word
      · split
        · exact (ih _).cons word
        · exact (ih _).cons_cons word

theorem outputNames_sublist (skip : Bool) (words : List Text) :
    (outputNames skip words).Sublist words := by
  induction words generalizing skip with
  | nil => exact List.nil_sublist _
  | cons word rest ih =>
    rw [outputNames]
    split
    · exact (ih _).cons_cons word
    · exact (ih _).cons word

/-- Of the words in which something is read, none of them an output flag, as many are left out as there are
among the names. -/
theorem length_filterMap_withoutOutput {read : Text → Option α}
    (hread : ∀ w, w ∈ outputFlagsWithName ∨ IsOutput msvc w → read w = none) (skip : Bool)
    (words : List Text) :
    ((withoutOutput msvc skip words).filterMap read).length +
      ((outputNames skip words).filterMap read).length = (words.filterMap read).length := by
  induction words generalizing skip with
  | nil => rfl
  | cons word rest ih =>
    have hcons : ∀ ws : List Text, ((word :: ws).filterMap read).length =
        (read word).toList.length + (ws.filterMap read).length := by
      intro ws
      cases hword : read word <;> simp [hword, Nat.add_comm]
    rw [hcons, ← ih (if skip then false else outputFlagsWithName.contains word), withoutOutput,
      outputNames]
    cases skip with
    | true =>
      rw [if_pos rfl, if_pos rfl, if_pos rfl, hcons]
      omega
    | false =>
      simp only [Bool.false_eq_true, if_false]
      by_cases hname : word ∈ outputFlagsWithName
      · rw [List.contains_iff_mem.mpr hname, if_pos rfl, hread word (.inl hname), Option.toList_none,
          List.length_nil, Nat.zero_add]
      · rw [Bool.eq_false_iff.mpr (mt List.contains_iff_mem.mp hname), if_neg (by decide)]
        split
        · next houtput =>
          rw [hread word (.inr (isOutputWord_iff.mp houtput)), Option.toList_none, List.length_nil,
            Nat.zero_add]
        · rw [hcons]
          omega

/-- **Everything that is read is kept just if nothing is read in the names.** -/
theorem filterMap_withoutOutput_eq_iff {read : Text → Option α}
    (hread : ∀ w, w ∈ outputFlagsWithName ∨ IsOutput msvc w → read w = none) :
    (withoutOutput msvc skip words).filterMap read = words.filterMap read ↔
      ∀ w ∈ outputNames skip words, read w = none := by
  have hlength := length_filterMap_withoutOutput hread skip words
  rw [← List.filterMap_eq_nil_iff, ← List.length_eq_zero_iff]
  constructor
  · intro hsame
    rw [hsame] at hlength
    omega
  · intro hnone
    refine ((withoutOutput_sublist msvc skip words).filterMap read).eq_of_length ?_
    omega

/-- So it is in a trace command, if nothing is read in the flags that report includes. -/
theorem filterMap_traceCommand?_eq_iff {read : Text → Option α} {compiler : Text} {trace : List Text}
    {report : Bool} (htrace : traceCommand? (compiler :: words) report = some trace)
    (hcompiler : isWrapper compiler = false)
    (hread : ∀ w, w ∈ outputFlagsWithName ∨ IsOutput (isMsvcDriver compiler) w → read w = none)
    (hreports : ∀ w ∈ reportFlags (isMsvcDriver compiler), read w = none) :
    trace.filterMap read = (compiler :: words).filterMap read ↔
      ∀ w ∈ outputNames false words, read w = none := by
  have hnone : List.filterMap read (if report then reportFlags (isMsvcDriver compiler) else []) = [] := by
    refine List.filterMap_eq_nil_iff.mpr fun w hw => hreports w ?_
    split at hw
    · exact hw
    · cases hw
  rw [traceCommand?_of_not_isWrapper hcompiler] at htrace
  obtain rfl := Option.some.inj htrace
  rw [List.filterMap_append, hnone, List.append_nil, ← List.singleton_append, List.filterMap_append,
    ← List.singleton_append (l := words), List.filterMap_append, List.append_right_inj]
  exact filterMap_withoutOutput_eq_iff hread

/-! ### Directives and sources -/

/-- A word that begins with no flag carries no directory. -/
theorem joined?_of_not_prefix (h : ∀ f ∈ flags, ¬ f <+: word) : joined? flags word = none :=
  joined?_eq_none_iff.mpr fun f hf hbegins => absurd hbegins (h f hf)

/-- For a word that is no flag this is the only reason. -/
theorem joined?_eq_none_iff_of_not_mem (h : word ∉ flags) :
    joined? flags word = none ↔ ∀ f ∈ flags, ¬ f <+: word := by
  refine ⟨fun hnone f hf hbegins => h ?_, joined?_of_not_prefix⟩
  have hlength : word.length ≤ f.length := joined?_eq_none_iff.mp hnone f hf hbegins
  exact hbegins.eq_of_length_le hlength ▸ hf

/-- If no flag stands alone, each word names the directory that it carries. -/
theorem directives_eq_filterMap (h : ∀ w ∈ words, w ∉ flags) :
    directives flags words = words.filterMap (joined? flags) := by
  fun_induction directives flags words with
  | case1 => rfl
  | case2 word => cases hword : joined? flags word <;> simp [hword]
  | case3 word next rest hword ih =>
    exact absurd (List.contains_iff_mem.mp hword) (h word List.mem_cons_self)
  | case4 word next rest _ ih =>
    rw [ih fun w hw => h w (List.mem_cons_of_mem word hw)]
    cases hword : joined? flags word with
    | none => rw [List.filterMap_cons_none hword, Option.toList_none, List.nil_append]
    | some d => rw [List.filterMap_cons_some hword, Option.toList_some, List.singleton_append]

/-- The ways in which output flags begin. -/
def outputBeginnings : List Text := ["-o", "-M", "-c", "/c", "/F"]

theorem exists_prefix_of_output (h : word ∈ outputFlagsWithName ∨ IsOutput msvc word) :
    ∃ f ∈ outputBeginnings, f <+: word := by
  have hwhole : ∀ w ∈ outputFlagsWithName ++ outputFlags ++ ["/c".toList] ++
      (joinedOutputFlags ++ msvcOutputFlags), ∃ f ∈ outputBeginnings, f <+: w := by decide
  have hjoined : ∀ w ∈ joinedOutputFlags ++ msvcOutputFlags, w <+: word →
      ∃ f ∈ outputBeginnings, f <+: word := by
    intro w hw hword
    obtain ⟨f, hf, hprefix⟩ := hwhole w (List.mem_append_right _ hw)
    exact ⟨f, hf, hprefix.trans hword⟩
  rcases h with hname | hflag | ⟨f, hf, hprefix⟩ | ⟨-, rfl | ⟨f, hf, hprefix⟩⟩
  · exact hwhole word (by simp [hname])
  · exact hwhole word (by simp [hflag])
  · exact hjoined f (by simp [hf]) hprefix
  · exact hwhole _ (by simp)
  · exact hjoined f (by simp [hf]) hprefix

/-- Drivers of the MSVC style know all search flags. -/
theorem searchFlags_of_isMsvcDriver {compiler : Text} (h : isMsvcDriver compiler = true)
    (words : List Text) : searchFlags (compiler :: words) = searchFlags [] ++ ["/I".toList] := by
  simp [searchFlags, h]

/-- No output flag begins with a search flag. -/
theorem not_prefix_of_output (h : word ∈ outputFlagsWithName ∨ IsOutput msvc word) :
    ∀ f ∈ searchFlags [] ++ ["/I".toList], ¬ f <+: word := by
  obtain ⟨f, hf, hprefix⟩ := exists_prefix_of_output h
  have happart : ∀ f ∈ outputBeginnings, ∀ f' ∈ searchFlags [] ++ ["/I".toList],
      ¬ f <+: f' ∧ ¬ f' <+: f := by decide
  intro f' hf' hprefix'
  obtain ⟨hbefore, hbehind⟩ := happart f hf f' hf'
  exact (List.prefix_or_prefix_of_prefix hprefix hprefix').elim hbefore hbehind

/-- No output flag is a source. -/
theorem isSourceArgument_of_output (h : word ∈ outputFlagsWithName ∨ IsOutput msvc word) :
    isSourceArgument word = false := by
  obtain ⟨f, hf, hprefix⟩ := exists_prefix_of_output h
  have hdash : ∀ f ∈ outputBeginnings, ['-'] <+: f ∨ ['/'] <+: f := by decide
  rcases hdash f hf with hbegins | hbegins
  · simp [isSourceArgument, Text.startsWith, List.isPrefixOf_iff_prefix.mpr (hbegins.trans hprefix)]
  · simp [isSourceArgument, Text.startsWith, List.isPrefixOf_iff_prefix.mpr (hbegins.trans hprefix)]

/-! ### Trace commands of MSVC drivers -/

section Msvc

variable {compiler : Text} {trace : List Text} {report : Bool}

theorem isWrapper_of_isMsvcDriver (h : isMsvcDriver compiler = true) : isWrapper compiler = false := by
  rw [← Bool.not_eq_true]
  intro hwrapper
  rw [isMsvcDriver_of_isWrapper hwrapper] at h
  cases h

/-- The words of a trace command are those of the command and flags that report includes. -/
theorem mem_of_mem_traceCommand? (h : isMsvcDriver compiler = true)
    (htrace : traceCommand? (compiler :: words) report = some trace) (hword : word ∈ trace) :
    word ∈ compiler :: words ∨ word ∈ reportFlags true := by
  rw [traceCommand?_of_not_isWrapper (isWrapper_of_isMsvcDriver h), h] at htrace
  obtain rfl := Option.some.inj htrace
  rcases List.mem_append.mp hword with hword | hword
  · exact .inl (((withoutOutput_sublist true false words).cons_cons compiler).subset hword)
  · split at hword
    · exact .inr hword
    · cases hword

/-- A trace command begins as its command does. -/
theorem searchFlags_traceCommand? (h : isMsvcDriver compiler = true)
    (htrace : traceCommand? (compiler :: words) report = some trace) :
    searchFlags trace = searchFlags (compiler :: words) := by
  rw [traceCommand?_of_not_isWrapper (isWrapper_of_isMsvcDriver h)] at htrace
  obtain rfl := Option.some.inj htrace
  rw [List.cons_append, searchFlags_of_isMsvcDriver h, searchFlags_of_isMsvcDriver h]

/-- The directories that a trace command names are those of the command, just if none is taken for the name
behind an output flag. -/
theorem directives_traceCommand?_eq_iff (h : isMsvcDriver compiler = true)
    (htrace : traceCommand? (compiler :: words) report = some trace)
    (hjoined : ∀ f ∈ searchFlags (compiler :: words), f ∉ compiler :: words) :
    directives (searchFlags trace) trace =
        directives (searchFlags (compiler :: words)) (compiler :: words) ↔
      ∀ name ∈ outputNames false words, ∀ f ∈ searchFlags (compiler :: words), ¬ f <+: name := by
  have hflags := searchFlags_of_isMsvcDriver h words
  have hreports : ∀ w ∈ reportFlags true, ∀ f ∈ searchFlags [] ++ ["/I".toList], ¬ f <+: w := by decide
  have halone : ∀ w ∈ compiler :: words, w ∉ searchFlags (compiler :: words) :=
    fun w hw hflag => hjoined w hflag hw
  have halone' : ∀ w ∈ trace, w ∉ searchFlags (compiler :: words) := by
    intro w hw
    rcases mem_of_mem_traceCommand? h htrace hw with hw | hw
    · exact halone w hw
    · rw [hflags]
      exact fun hflag => hreports w hw w hflag List.prefix_rfl
  rw [searchFlags_traceCommand? h htrace, directives_eq_filterMap halone, directives_eq_filterMap halone']
  refine (filterMap_traceCommand?_eq_iff htrace (isWrapper_of_isMsvcDriver h) ?_ ?_).trans ?_
  · intro w hw
    rw [hflags]
    exact joined?_of_not_prefix (not_prefix_of_output hw)
  · intro w hw
    rw [h] at hw
    rw [hflags]
    exact joined?_of_not_prefix (hreports w hw)
  · refine forall₂_congr fun name hname => joined?_eq_none_iff_of_not_mem (halone name ?_)
    exact List.mem_cons_of_mem compiler ((outputNames_sublist false words).subset hname)

/-- The sources of a trace command are those of the command, just if none is taken for the name behind an
output flag. -/
theorem filter_traceCommand?_eq_iff (h : isMsvcDriver compiler = true)
    (htrace : traceCommand? (compiler :: words) report = some trace) :
    trace.filter isSourceArgument = (compiler :: words).filter isSourceArgument ↔
      ∀ name ∈ outputNames false words, isSourceArgument name = false := by
  have hreports : ∀ w ∈ reportFlags true, isSourceArgument w = false := by decide +kernel
  have hguard : ∀ w, Option.guard isSourceArgument w = none ↔ isSourceArgument w = false := by
    simp [Option.guard_eq_none_iff]
  rw [← List.filterMap_eq_filter]
  refine (filterMap_traceCommand?_eq_iff htrace (isWrapper_of_isMsvcDriver h) ?_ ?_).trans ?_
  · exact fun w hw => (hguard w).mpr (isSourceArgument_of_output hw)
  · rw [h]
    exact fun w hw => (hguard w).mpr (hreports w hw)
  · exact forall₂_congr fun name _ => hguard name

end Msvc

/-- **A trace command loses what is taken for a name behind an output flag, and nothing else that is
needed.**

Let a command begin with a driver of the MSVC style, and let no search flag stand alone in it. It has a
trace command, which names the same directories just if none of the names behind output flags is a
directive; then it has the same search directories from every working directory. And it has the same
source arguments just if none of these names is one. -/
theorem traceCommand?_keeps_needed (compiler : Text) (words : List Text) (report : Bool)
    (hmsvc : isMsvcDriver compiler = true)
    (hjoined : ∀ f ∈ searchFlags (compiler :: words), f ∉ compiler :: words) :
    ∃ trace, traceCommand? (compiler :: words) report = some trace ∧
      (directives (searchFlags trace) trace =
          directives (searchFlags (compiler :: words)) (compiler :: words) ↔
        ∀ name ∈ outputNames false words, ∀ f ∈ searchFlags (compiler :: words), ¬ f <+: name) ∧
      ((∀ name ∈ outputNames false words, ∀ f ∈ searchFlags (compiler :: words), ¬ f <+: name) →
        ∀ cwd working, searchDirectories cwd trace working =
          searchDirectories cwd (compiler :: words) working) ∧
      (trace.filter isSourceArgument = (compiler :: words).filter isSourceArgument ↔
        ∀ name ∈ outputNames false words, isSourceArgument name = false) := by
  have htrace : traceCommand? (compiler :: words) report = some _ :=
    traceCommand?_of_not_isWrapper (isWrapper_of_isMsvcDriver hmsvc) report
  have hdirectives := directives_traceCommand?_eq_iff hmsvc htrace hjoined
  refine ⟨_, htrace, hdirectives, fun hneeded cwd working => ?_, filter_traceCommand?_eq_iff hmsvc htrace⟩
  rw [searchDirectories, searchDirectories, hdirectives.mpr hneeded]

/-- The word that `-MT` takes for a name is needed by nobody; a flag in one word takes none. -/
theorem traceCommand?_keeps_needed_runtime :
    let words : List Text := ["/Iinc".toList, "-MT".toList, "-DX=1".toList, "-MTd".toList,
      "-isystemC:\\sys".toList, "/Fo../a.obj".toList, "src\\a.CPP".toList, "-MD".toList]
    let trace : List Text := ["CL.exe".toList, "/Iinc".toList, "-isystemC:\\sys".toList,
      "src\\a.CPP".toList, "/showIncludes".toList, "/Zs".toList]
    isMsvcDriver "CL.exe" = true ∧
      (∀ f ∈ searchFlags ("CL.exe".toList :: words), f ∉ "CL.exe".toList :: words) ∧
      traceCommand? ("CL.exe".toList :: words) true = some trace ∧
      searchDirectories ['/'] ("CL.exe".toList :: words) "/w" = ["/w/inc".toList, "C:\\sys".toList] ∧
      searchDirectories ['/'] trace "/w" = ["/w/inc".toList, "C:\\sys".toList] ∧
      trace.filter isSourceArgument = ["src\\a.CPP".toList] := by
  intro words trace
  have hmsvc : isMsvcDriver "CL.exe" = true := by decide +kernel
  have hjoined : ∀ f ∈ searchFlags ("CL.exe".toList :: words), f ∉ "CL.exe".toList :: words := by
    decide +kernel
  have hfound : searchDirectories ['/'] ("CL.exe".toList :: words) "/w" =
      ["/w/inc".toList, "C:\\sys".toList] := by decide +kernel
  have htrace : traceCommand? ("CL.exe".toList :: words) true = some trace := by decide +kernel
  obtain ⟨trace', htrace', -, hsearch, hsources⟩ :=
    traceCommand?_keeps_needed "CL.exe" words true hmsvc hjoined
  obtain rfl : trace = trace' := Option.some.inj (htrace.symm.trans htrace')
  refine ⟨hmsvc, hjoined, htrace, hfound, ?_, ?_⟩
  · rw [hsearch (by decide +kernel) ['/'] "/w", hfound]
  · rw [hsources.mpr (by decide +kernel)]
    decide +kernel

/-- **What follows `-MT` is lost**: a directory, or the source itself. No other flag of these commands is
taken for one with a name. -/
theorem traceCommand?_loses_needed :
    let words : List Text := ["cl.exe".toList, "-MT".toList, "/Iinc".toList, "a.cpp".toList]
    let words' : List Text := ["cl.exe".toList, "/Iinc".toList, "-MT".toList, "a.cpp".toList]
    isMsvcDriver "cl.exe" = true ∧
      (∀ f ∈ searchFlags words, f ∉ words ∧ f ∉ words') ∧
      (∀ f ∈ outputFlagsWithName, f ≠ "-MT".toList → f ∉ words ∧ f ∉ words') ∧
      traceCommand? words false = some ["cl.exe".toList, "a.cpp".toList] ∧
      searchDirectories ['/'] words "/w" = ["/w/inc".toList] ∧
      searchDirectories ['/'] ["cl.exe".toList, "a.cpp".toList] "/w" = [] ∧
      traceCommand? words' false = some ["cl.exe".toList, "/Iinc".toList] ∧
      isSourceArgument "a.cpp" = true := by
  decide +kernel

end IncludeTrace.Command
