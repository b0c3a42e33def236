import IncludeTrace.Proofs.Command.Wrappers

/-!
# Trace commands of written commands

Behind the wrappers and the compiler a command is written from portions: words that are kept, words that
make a driver write a file, and flags that do so with the name of the file in a word of its own. The trace
command keeps the first kind and leaves out the others, whatever stands next to what
(`Command.traceCommand?_written`). A name is left out even if it looks like a flag, and a word that is kept
may look like a wrapper.

What is kept would be kept again, so a trace command that does not report includes is its own trace command.
-/

namespace IncludeTrace.Command

/-- A word that **makes a driver write** a file without a name behind it: an output flag, a flag that
carries the name, or one of those that only MSVC drivers know. -/
def IsOutput (msvc : Bool) (word : Text) : Prop :=
  word ∈ outputFlags ∨ (∃ f ∈ joinedOutputFlags, f <+: word) ∨
    msvc = true ∧ (word = "/c".toList ∨ ∃ f ∈ msvcOutputFlags, f <+: word)

instance (msvc : Bool) : DecidablePred (IsOutput msvc) := fun word =>
  inferInstanceAs (Decidable (word ∈ outputFlags ∨ (∃ f ∈ joinedOutputFlags, f <+: word) ∨
    msvc = true ∧ (word = "/c".toList ∨ ∃ f ∈ msvcOutputFlags, f <+: word)))

/-- A **portion** of a command: a word that is kept, one that makes the driver write a file, or a flag
that does so with the name behind it. -/
inductive Portion
  | kept (word : Text)
  | output (word : Text)
  | named (flag name : Text)
  deriving DecidableEq

namespace Portion

/-- The words that a portion is written as. -/
def words : Portion → List Text
  | kept word | output word => [word]
  | named flag name => [flag, name]

/-- The word that is kept of a portion. -/
def kept? : Portion → Option Text
  | kept word => some word
  | output _ | named _ _ => none

/-- A portion **fits** a family of drivers if it is what it is said to be; the name behind a flag may be any
word. -/
def Fits (msvc : Bool) : Portion → Prop
  | kept word => word ∉ outputFlagsWithName ∧ ¬ IsOutput msvc word
  | output word => word ∉ outputFlagsWithName ∧ IsOutput msvc word
  | named flag _ => flag ∈ outputFlagsWithName

instance (msvc : Bool) : DecidablePred (Fits msvc)
  | kept word => inferInstanceAs (Decidable (word ∉ outputFlagsWithName ∧ ¬ IsOutput msvc word))
  | output word => inferInstanceAs (Decidable (word ∉ outputFlagsWithName ∧ IsOutput msvc word))
  | named flag _ => inferInstanceAs (Decidable (flag ∈ outputFlagsWithName))

end Portion

variable {msvc skip : Bool} {word : Text} {words rest : List Text}

/-! ### Single words -/

theorem isOutputWord_iff : isOutputWord msvc word = true ↔ IsOutput msvc word := by
  simp only [isOutputWord, IsOutput, Text.startsWith, Bool.or_eq_true, Bool.and_eq_true,
    List.contains_iff_mem, List.any_eq_true, List.isPrefixOf_iff_prefix, decide_eq_true_eq, or_assoc]

theorem withoutOutput_kept (hname : word ∉ outputFlagsWithName) (houtput : ¬ IsOutput msvc word) :
    withoutOutput msvc false (word :: rest) = word :: withoutOutput msvc false rest := by
  rw [withoutOutput, if_neg (by decide), if_neg (mt List.contains_iff_mem.mp hname),
    if_neg (mt isOutputWord_iff.mp houtput)]

theorem withoutOutput_output (hname : word ∉ outputFlagsWithName) (houtput : IsOutput msvc word) :
    withoutOutput msvc false (word :: rest) = withoutOutput msvc false rest := by
  rw [withoutOutput, if_neg (by decide), if_neg (mt List.contains_iff_mem.mp hname),
    if_pos (isOutputWord_iff.mpr houtput)]

/-- A flag with a name takes whatever word is next. -/
theorem withoutOutput_named (hflag : word ∈ outputFlagsWithName) :
    withoutOutput msvc false (word :: rest) = withoutOutput msvc false rest.tail := by
  rw [withoutOutput, if_neg (by decide), if_pos (List.contains_iff_mem.mpr hflag)]
  cases rest with
  | nil => rfl
  | cons name rest => rw [withoutOutput, if_pos rfl, List.tail_cons]

/-! ### Written commands -/

/-- **Of a written command the words are kept that were written as such.** -/
theorem withoutOutput_written {portions : List Portion} (hfits : ∀ p ∈ portions, p.Fits msvc) :
    withoutOutput msvc false (portions.flatMap Portion.words) = portions.filterMap Portion.kept? := by
  induction portions with
  | nil => rfl
  | cons p portions ih =>
    obtain ⟨hp, hrest⟩ := List.forall_mem_cons.mp hfits
    rw [List.flatMap_cons, List.filterMap_cons, ← ih hrest]
    cases p with
    | kept word => exact withoutOutput_kept hp.1 hp.2
    | output word => exact withoutOutput_output hp.1 hp.2
    | named flag name => exact withoutOutput_named hp

theorem withoutOutput_of_kept (h : ∀ w ∈ words, w ∉ outputFlagsWithName ∧ ¬ IsOutput msvc w) :
    withoutOutput msvc false words = words := by
  have hfits : ∀ p ∈ words.map Portion.kept, p.Fits msvc := List.forall_mem_map.mpr h
  have hwritten := withoutOutput_written hfits
  simpa [List.flatMap_map, Portion.words, Portion.kept?, List.filterMap_map, Function.comp_def]
    using hwritten

/-- What is kept would be kept again. -/
theorem of_mem_withoutOutput (h : word ∈ withoutOutput msvc skip words) :
    word ∉ outputFlagsWithName ∧ ¬ IsOutput msvc word := by
  induction words generalizing skip with
  | nil => cases h
  | cons first rest ih =>
    rw [withoutOutput] at h
    split at h
    · exact ih h
    · split at h
      · exact ih h
      · next hname =>
        split at h
        · exact ih h
        · next houtput =>
          rcases List.mem_cons.mp h with rfl | h
          · exact ⟨mt List.contains_iff_mem.mpr hname, mt isOutputWord_iff.mpr houtput⟩
          · exact ih h

/-- A command that begins with no wrapper is the compiler's own. -/
theorem traceCommand?_of_not_isWrapper {compiler : Text} (h : isWrapper compiler = false)
    (report : Bool) : traceCommand? (compiler :: rest) report =
      some (compiler :: withoutOutput (isMsvcDriver compiler) false rest ++
        if report then reportFlags (isMsvcDriver compiler) else []) := by
  rw [traceCommand?, List.dropWhile_cons_of_neg (by simp [h])]

theorem traceCommand?_append {wrappers : List Text} (h : ∀ w ∈ wrappers, isWrapper w = true)
    (words : List Text) (report : Bool) :
    traceCommand? (wrappers ++ words) report = traceCommand? words report := by
  induction wrappers with
  | nil => rfl
  | cons w wrappers ih =>
    obtain ⟨hw, hrest⟩ := List.forall_mem_cons.mp h
    rw [List.cons_append, traceCommand?_cons hw, ih hrest]

/-- **A trace command that does not report includes is its own trace command.** -/
theorem traceCommand?_traceCommand? (words : List Text) :
    (traceCommand? words false).bind (traceCommand? · false) = traceCommand? words false := by
  cases hsplit : words.dropWhile isWrapper with
  | nil => simp [traceCommand?, hsplit]
  | cons compiler rest =>
    have hcompiler : isWrapper compiler = false := by
      have hhead := List.head?_dropWhile_not isWrapper words
      rw [hsplit] at hhead
      simpa using hhead
    have htrace : traceCommand? words false =
        some (compiler :: withoutOutput (isMsvcDriver compiler) false rest) := by
      simp [traceCommand?, hsplit]
    rw [htrace, Option.bind_some, traceCommand?_of_not_isWrapper hcompiler,
      withoutOutput_of_kept fun _ => of_mem_withoutOutput]
    simp

/-- **The trace command of a written command is the compiler with the words that are kept.**

Let a command be written from wrappers, a compiler that is no wrapper, and portions that fit the family of
the compiler. Its trace command consists of the compiler and the words of the portions that are kept, in
their order, and if it is to report includes, of the flags of the family for that. Nothing more is lost if
the trace command of a trace command is made. -/
theorem traceCommand?_written (wrappers : List Text) (compiler : Text) (portions : List Portion)
    (report : Bool) (hwrappers : ∀ w ∈ wrappers, isWrapper w = true)
    (hcompiler : isWrapper compiler = false)
    (hfits : ∀ p ∈ portions, p.Fits (isMsvcDriver compiler)) :
    traceCommand? (wrappers ++ [compiler] ++ portions.flatMap Portion.words) report =
        some ([compiler] ++ portions.filterMap Portion.kept? ++
          if report then reportFlags (isMsvcDriver compiler) else []) ∧
      ∀ words : List Text,
        (traceCommand? words false).bind (traceCommand? · false) = traceCommand? words false := by
  refine ⟨?_, traceCommand?_traceCommand?⟩
  rw [List.append_assoc, traceCommand?_append hwrappers, List.singleton_append,
    traceCommand?_of_not_isWrapper hcompiler, withoutOutput_written hfits]
  rfl

/-- Flags and a wrapper for names, a flag that only MSVC drivers know for a name, and a kept word that is the
name of a wrapper. -/
theorem traceCommand?_written_mixed :
    let portions : List Portion := [.kept "/Iinc".toList, .named "-o".toList "-c".toList,
      .output "/Foa.obj".toList, .named "-MF".toList "-MF".toList, .kept "ccache".toList,
      .output "-MTd".toList, .output "/c".toList, .named "-MJ".toList "/I".toList, .kept "a.cpp".toList,
      .output "-MMD".toList]
    (∀ w ∈ ["/usr/bin/CCACHE".toList, "distcc".toList], isWrapper w = true) ∧
      isWrapper "C:\\VS\\cl.exe" = false ∧
      (∀ p ∈ portions, p.Fits (isMsvcDriver "C:\\VS\\cl.exe")) ∧
      traceCommand? (["/usr/bin/CCACHE".toList, "distcc".toList] ++ ["C:\\VS\\cl.exe".toList] ++
          portions.flatMap Portion.words) true =
        some ["C:\\VS\\cl.exe".toList, "/Iinc".toList, "ccache".toList, "a.cpp".toList,
          "/showIncludes".toList, "/Zs".toList] := by
  intro portions
  have hwrappers : ∀ w ∈ ["/usr/bin/CCACHE".toList, "distcc".toList], isWrapper w = true := by
    decide +kernel
  have hcompiler : isWrapper "C:\\VS\\cl.exe" = false := by decide +kernel
  have hfits : ∀ p ∈ portions, p.Fits (isMsvcDriver "C:\\VS\\cl.exe") := by decide +kernel
  refine ⟨hwrappers, hcompiler, hfits, ?_⟩
  rw [(traceCommand?_written _ _ portions true hwrappers hcompiler hfits).1]
  decide +kernel

end IncludeTrace.Command
