import IncludeTrace.Command.Search
import IncludeTrace.Command.Trace
import IncludeTrace.Command.Words
import IncludeTrace.Proofs.Text.Casing
import Mathlib.Tactic.Common

/-!
# Wrappers in front of a command

A wrapper becomes one more word in front of the others. This module says what each stage of reading a
command makes of it. A command that is split by the shell convention has the wrapper as its first word
and the old words behind it (`Command.shellWords_cons`), and as long as there are no quotes and
backslashes both conventions are the same (`Command.driverWords_eq_shellWords`). The trace command has
no wrappers (`Command.traceCommand?_cons`). Search directories are found behind a wrapper
(`Command.searchDirectories_cons`), all but those of `/I`: this flag is known by the first word of the
command alone, and this is the wrapper now.
-/

namespace IncludeTrace.Command

variable {wrapper t : Text} {words : List Text}

/-! ### Splitting -/

/-- A text is **unquoted** if it has neither quotes nor backslashes. -/
def Unquoted (t : Text) : Prop := ∀ c ∈ t, c ≠ '\\' ∧ c ≠ '\'' ∧ c ≠ '"'

instance (t : Text) : Decidable (Unquoted t) :=
  List.decidableBAll (fun c => c ≠ '\\' ∧ c ≠ '\'' ∧ c ≠ '"') t

/-- A text is a **plain word** if it is one word in every convention as it stands: it is not empty, and
has neither separators nor quotes nor backslashes. -/
structure IsPlainWord (t : Text) : Prop where
  ne_nil : t ≠ []
  unquoted : Unquoted t
  whole : ∀ c ∈ t, isSeparator c = false

instance (t : Text) : Decidable (IsPlainWord t) :=
  haveI := List.decidableBAll (fun c => isSeparator c = false) t
  decidable_of_iff (t ≠ [] ∧ Unquoted t ∧ ∀ c ∈ t, isSeparator c = false)
    ⟨fun ⟨hne, hunquoted, hwhole⟩ => ⟨hne, hunquoted, hwhole⟩,
      fun h => ⟨h.ne_nil, h.unquoted, h.whole⟩⟩

/-- If each character is written so that it goes into the word under way and the place stays, so does a
text. -/
theorem shellWordsFrom_flatMap {place : ShellPlace} {write : Char → Text}
    (h : ∀ c ∈ t, ∀ word rest, shellWordsFrom place word (write c ++ rest) =
      shellWordsFrom place (word ++ [c]) rest) (word rest : Text) :
    shellWordsFrom place word (t.flatMap write ++ rest) = shellWordsFrom place (word ++ t) rest := by
  induction t generalizing word with
  | nil => rw [List.flatMap_nil, List.nil_append, List.append_nil]
  | cons c t ih =>
    obtain ⟨hc, ht⟩ := List.forall_mem_cons.mp h
    rw [List.flatMap_cons, List.append_assoc, hc, ih ht, List.append_assoc, List.singleton_append]

/-- A blank ends the word under way. -/
theorem shellWordsFrom_blank (word t : Text) :
    shellWordsFrom .word word (' ' :: t) = (shellWords t).map (word :: ·) := by
  rw [shellWordsFrom, if_pos (by decide), shellWords]

/-- A plain word is read as it stands. -/
theorem IsPlainWord.shellWordsFrom_append {w : Text} (h : IsPlainWord w) (rest : Text) :
    shellWordsFrom .between [] (w ++ rest) = shellWordsFrom .word w rest := by
  have hstep : ∀ c ∈ w, ∀ word rest, shellWordsFrom .word word ([c] ++ rest) =
      shellWordsFrom .word (word ++ [c]) rest := by
    intro c hc word rest
    obtain ⟨hback, hsingle, hdouble⟩ := h.unquoted c hc
    rw [List.singleton_append, shellWordsFrom, if_neg (by simp [h.whole c hc]), if_neg hback,
      if_neg hsingle, if_neg hdouble]
  obtain ⟨c, w, rfl⟩ := List.exists_cons_of_ne_nil h.ne_nil
  obtain ⟨hback, hsingle, hdouble⟩ := h.unquoted c List.mem_cons_self
  obtain ⟨-, hlater⟩ := List.forall_mem_cons.mp hstep
  have hrun := shellWordsFrom_flatMap hlater [c] rest
  rw [List.flatMap_singleton', List.singleton_append] at hrun
  rw [List.cons_append, shellWordsFrom, if_neg (by simp [h.whole c List.mem_cons_self]), if_neg hback,
    if_neg hsingle, if_neg hdouble, hrun]

/-- **A plain word in front of a command becomes its first word.** -/
theorem shellWords_cons (h : IsPlainWord wrapper) (t : Text) :
    shellWords (wrapper ++ ' ' :: t) = (shellWords t).map (wrapper :: ·) := by
  rw [shellWords, h.shellWordsFrom_append, shellWordsFrom_blank]

/-- **Both conventions split an unquoted command alike.** -/
theorem driverWords_eq_shellWords (h : Unquoted t) : driverWords t = shellWords t := by
  have hrun : ∀ word, driverWordsFrom .between word t = shellWordsFrom .between word t ∧
      driverWordsFrom .word word t = shellWordsFrom .word word t := by
    induction t with
    | nil => exact fun word => ⟨rfl, rfl⟩
    | cons c t ih =>
      obtain ⟨⟨hback, hsingle, hdouble⟩, ht⟩ := List.forall_mem_cons.mp h
      intro word
      have hnone : ¬ (c = '\'' ∨ c = '"') := not_or.mpr ⟨hsingle, hdouble⟩
      simp only [driverWordsFrom, shellWordsFrom, if_neg hback, if_neg hsingle, if_neg hdouble,
        if_neg hnone, (ih ht _).1, (ih ht _).2, and_self]
  exact (hrun []).1

/-! ### Reading words -/

/-- Without backslashes behind the last slash, both styles of separators end a path in the same name. -/
theorem label_eq_baseName {p : Text} (h : '\\' ∉ Path.baseName p) :
    Path.label p = Path.baseName p := by
  have hrun : ∀ l : Text, '\\' ∉ l.takeWhile (· ≠ '/') →
      (l.map fun c => if c = '\\' then '/' else c).takeWhile (· ≠ '/') = l.takeWhile (· ≠ '/') := by
    intro l
    induction l with
    | nil => exact fun _ => rfl
    | cons c l ih =>
      intro hl
      by_cases hc : c = '/'
      · subst hc
        rfl
      · rw [List.takeWhile_cons_of_pos (by simpa using hc), List.mem_cons, not_or] at hl
        rw [List.map_cons, if_neg (Ne.symm hl.1), List.takeWhile_cons_of_pos (by simpa using hc),
          List.takeWhile_cons_of_pos (by simpa using hc), ih hl.2]
  rw [Path.baseName, Text.afterLast, List.mem_reverse] at h
  rw [Path.label, Path.baseName, Path.baseName, Text.afterLast, Text.afterLast, Path.slashed,
    ← List.map_reverse, hrun _ h]

/-- **A wrapper is no driver**, in either style of separators. -/
theorem isMsvcDriver_of_isWrapper (h : isWrapper wrapper = true) : isMsvcDriver wrapper = false := by
  have hname : (Path.baseName wrapper).lower ∈ wrappers := List.contains_iff_mem.mp h
  have hback : '\\' ∉ Path.baseName wrapper := by
    intro hmem
    have hlower := Text.mem_lower (d := '\\') (by decide) hmem
    exact absurd hlower ((show ∀ name ∈ wrappers, '\\' ∉ name by decide) _ hname)
  rw [isMsvcDriver, label_eq_baseName hback]
  exact (show ∀ name ∈ wrappers, msvcDrivers.contains name = false by decide) _ hname

/-- **The trace command has no wrappers.** -/
theorem traceCommand?_cons (h : isWrapper wrapper = true) (words : List Text) (report : Bool) :
    traceCommand? (wrapper :: words) report = traceCommand? words report := by
  rw [traceCommand?, List.dropWhile_cons_of_pos h, traceCommand?]

/-- A word carries no directory just if no flag that it begins with is shorter. -/
theorem joined?_eq_none_iff {flags : List Text} {word : Text} :
    joined? flags word = none ↔ ∀ f ∈ flags, f <+: word → word.length ≤ f.length := by
  simp only [joined?, Option.map_eq_none_iff, List.find?_eq_none, Bool.and_eq_true,
    List.isPrefixOf_iff_prefix, decide_eq_true_eq, not_and, Nat.not_lt]

/-- A word that begins with no flag names no directory. -/
theorem directives_cons {flags : List Text} {word : Text}
    (h : ∀ f ∈ flags, f.isPrefixOf word = false) (words : List Text) :
    directives flags (word :: words) = directives flags words := by
  have hjoined : joined? flags word = none := by
    refine joined?_eq_none_iff.mpr fun f hf hbegins => ?_
    rw [← List.isPrefixOf_iff_prefix, h f hf] at hbegins
    cases hbegins
  have hflag : word ∉ flags := by
    intro hmem
    have hself := h word hmem
    rw [Bool.eq_false_iff] at hself
    exact hself (List.isPrefixOf_iff_prefix.mpr List.prefix_rfl)
  cases words with
  | nil => simp [directives, hjoined]
  | cons next rest => simp [directives, hflag, hjoined]

/-- A flag that no word begins with makes no difference. -/
theorem directives_append {flags : List Text} {flag : Text}
    (h : ∀ word ∈ words, flag.isPrefixOf word = false) :
    directives (flags ++ [flag]) words = directives flags words := by
  have hjoined : ∀ word, flag.isPrefixOf word = false →
      joined? (flags ++ [flag]) word = joined? flags word := by
    intro word hword
    simp [joined?, List.find?_append, hword]
  have hcontains : ∀ word, flag.isPrefixOf word = false →
      (flags ++ [flag]).contains word = flags.contains word := by
    intro word hword
    have hne : word ≠ flag := by
      rintro rfl
      rw [Bool.eq_false_iff] at hword
      exact hword (List.isPrefixOf_iff_prefix.mpr List.prefix_rfl)
    simp [hne]
  fun_induction directives flags words with
  | case1 => rfl
  | case2 word => rw [directives, hjoined word (h word List.mem_cons_self)]
  | case3 word next rest hword ih =>
    obtain ⟨hfirst, hlater⟩ := List.forall_mem_cons.mp h
    obtain ⟨-, hrest⟩ := List.forall_mem_cons.mp hlater
    rw [directives, hcontains word hfirst, if_pos hword, ih hrest]
  | case4 word next rest hword ih =>
    obtain ⟨hfirst, hrest⟩ := List.forall_mem_cons.mp h
    rw [directives, hcontains word hfirst, if_neg hword, hjoined word hfirst, ih hrest]

/-- There is one flag that not all drivers know. -/
theorem searchFlags_cases (words : List Text) :
    searchFlags words = searchFlags [] ∨ searchFlags words = searchFlags [] ++ ["/I".toList] := by
  cases words with
  | nil => exact .inl rfl
  | cons program words => cases h : isMsvcDriver program <;> simp [searchFlags, h]

/-- **Search directories are found behind a wrapper**, if it begins with no flag, and no word begins
with the flag that only MSVC drivers know or the command is none of theirs. -/
theorem searchDirectories_cons (h : isWrapper wrapper = true)
    (hflag : ∀ f ∈ searchFlags [], f.isPrefixOf wrapper = false)
    (hwords : searchFlags words = searchFlags [] ∨ ∀ word ∈ words, "/I".toList.isPrefixOf word = false)
    (cwd working : Text) :
    searchDirectories cwd (wrapper :: words) working = searchDirectories cwd words working := by
  have hfront : searchFlags (wrapper :: words) = searchFlags [] := by
    simp [searchFlags, isMsvcDriver_of_isWrapper h]
  have hsame : directives (searchFlags words) words = directives (searchFlags []) words := by
    rcases hwords with hwords | hwords
    · rw [hwords]
    · rcases searchFlags_cases words with hflags | hflags
      · rw [hflags]
      · rw [hflags, directives_append hwords]
  rw [searchDirectories, searchDirectories, hfront, directives_cons hflag, hsame]

end IncludeTrace.Command
