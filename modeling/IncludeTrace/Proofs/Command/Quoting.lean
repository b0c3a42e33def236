import IncludeTrace.Proofs.Database.Wrappers
import IncludeTrace.Proofs.Path.Normal
import Mathlib.Data.List.TakeWhile

/-!
# Quoting and splitting

A word can be written in three ways for the shell convention: bare, if it has harmless characters only,
between single quotes, or between double quotes. Each way is read back as the word, whatever stands behind
it (`Command.Quoted.shellWordsFrom_written`), and so a command comes apart into the words that it was made of
(`Command.shellWords_quotedCommand`).

An entry is split by the shell convention only if its command does not begin with a driver of the MSVC style.
What a command begins with is taken as it is written, and a quoted name still has its quotes then, which no
driver has in its name (`Command.isMsvcDriver_concat`). So only a bare name matters, and
`Database.entryWords_quoted` puts all of this together.
-/

namespace IncludeTrace

namespace Command

/-- A character that stands for itself without quotes. -/
def isBareChar (c : Char) : Bool :=
  c.isAlphanum || ['_', '@', '%', '+', '=', ':', ',', '.', '/', '-'].contains c

/-- A character between single quotes. A single quote leaves them, and stands between double quotes. -/
def inSingle (c : Char) : Text := if c = '\'' then ['\'', '"', '\'', '"', '\''] else [c]

/-- A character between double quotes. -/
def inDouble (c : Char) : Text := if c = '"' ∨ c = '\\' then ['\\', c] else [c]

/-- A **quoted word** is a text together with a way to write it. -/
inductive Quoted
  | bare (t : Text) (hne : t ≠ []) (hbare : t.all isBareChar = true)
  | single (t : Text)
  | double (t : Text)

/-- The text that is meant. -/
def Quoted.text : Quoted → Text
  | .bare t _ _ => t
  | .single t => t
  | .double t => t

/-- The text as it is written. -/
def Quoted.written : Quoted → Text
  | .bare t _ _ => t
  | .single t => '\'' :: t.flatMap inSingle ++ ['\'']
  | .double t => '"' :: t.flatMap inDouble ++ ['"']

/-- Whether there are no quotes. -/
def Quoted.isBare : Quoted → Bool
  | .bare _ _ _ => true
  | _ => false

/-- A **quoted command** has its words apart by single blanks. -/
def quotedCommand (words : List Quoted) : Text := Text.join [' '] (words.map Quoted.written)

variable {c : Char} {q : Quoted} {t : Text}

/-! ### Reading a word back -/

/-- Bare characters are harmless. -/
theorem isPlainWord_of_isBareChar (hne : t ≠ []) (hbare : t.all isBareChar = true) :
    IsPlainWord t := by
  rw [List.all_eq_true] at hbare
  refine ⟨hne, fun c hc => ⟨?_, ?_, ?_⟩, fun c hc => ?_⟩
  · rintro rfl
    exact absurd (hbare _ hc) (by decide)
  · rintro rfl
    exact absurd (hbare _ hc) (by decide)
  · rintro rfl
    exact absurd (hbare _ hc) (by decide)
  · rw [Bool.eq_false_iff]
    intro hseparator
    simp only [isSeparator, Bool.or_eq_true, decide_eq_true_eq] at hseparator
    rcases hseparator with ((rfl | rfl) | rfl) | rfl <;> exact absurd (hbare _ hc) (by decide)

theorem shellWordsFrom_inSingle (c : Char) (word rest : Text) :
    shellWordsFrom .single word (inSingle c ++ rest) = shellWordsFrom .single (word ++ [c]) rest := by
  by_cases hc : c = '\''
  · subst hc
    rfl
  · rw [inSingle, if_neg hc, List.singleton_append, shellWordsFrom, if_neg hc]

theorem shellWordsFrom_inDouble (c : Char) (word rest : Text) :
    shellWordsFrom .double word (inDouble c ++ rest) = shellWordsFrom .double (word ++ [c]) rest := by
  by_cases hc : c = '"' ∨ c = '\\'
  · rw [inDouble, if_pos hc]
    change shellWordsFrom .doubleEscape word (c :: rest) = _
    rw [shellWordsFrom, if_pos hc]
  · obtain ⟨hquote, hback⟩ := not_or.mp hc
    rw [inDouble, if_neg hc, List.singleton_append, shellWordsFrom, if_neg hquote, if_neg hback]

/-- **A quoted word is read back as what is meant**, and the word stays open. -/
theorem Quoted.shellWordsFrom_written (q : Quoted) (rest : Text) :
    shellWordsFrom .between [] (q.written ++ rest) = shellWordsFrom .word q.text rest := by
  cases q with
  | bare t hne hbare => exact (isPlainWord_of_isBareChar hne hbare).shellWordsFrom_append rest
  | single t =>
    have hopen : shellWordsFrom .between [] ((single t).written ++ rest) =
        shellWordsFrom .single [] (t.flatMap inSingle ++ '\'' :: rest) := by
      simp [written, shellWordsFrom, isSeparator]
    rw [hopen, shellWordsFrom_flatMap fun c _ => shellWordsFrom_inSingle c, shellWordsFrom, if_pos rfl]
    rfl
  | double t =>
    have hopen : shellWordsFrom .between [] ((double t).written ++ rest) =
        shellWordsFrom .double [] (t.flatMap inDouble ++ '"' :: rest) := by
      simp [written, shellWordsFrom, isSeparator]
    rw [hopen, shellWordsFrom_flatMap fun c _ => shellWordsFrom_inDouble c, shellWordsFrom, if_pos rfl]
    rfl

/-- **A quoted command comes apart into its words.** -/
theorem shellWords_quotedCommand (words : List Quoted) :
    shellWords (quotedCommand words) = .ok (words.map Quoted.text) := by
  induction words with
  | nil => rfl
  | cons q words ih =>
    by_cases hne : words = []
    · subst hne
      have hlast := q.shellWordsFrom_written []
      rw [List.append_nil] at hlast
      rw [quotedCommand, List.map_singleton, Text.join, List.intercalate_singleton, shellWords, hlast]
      rfl
    · have hwritten : words.map Quoted.written ≠ [] := by simpa using hne
      rw [quotedCommand, List.map_cons, Text.join_cons_of_ne_nil hwritten, ← quotedCommand,
        List.append_assoc, List.singleton_append, shellWords, q.shellWordsFrom_written,
        shellWordsFrom_blank, ih]
      rfl

/-! ### What a command begins with -/

/-- **No driver has a quote at the end.** -/
theorem isMsvcDriver_concat (hc : c = '\'' ∨ c = '"') (t : Text) : isMsvcDriver (t ++ [c]) = false := by
  have hname : ∀ d : Char, d ≠ '/' → d ≠ '\\' → d ∈ Path.label (t ++ [d]) := by
    intro d hslash hback
    have hlast : (Path.slashed (t ++ [d])).reverse = d :: (Path.slashed t).reverse := by
      rw [Path.slashed, List.map_append, List.reverse_append, List.map_singleton, if_neg hback]
      rfl
    rw [Path.label, Path.baseName, Text.afterLast, hlast,
      List.takeWhile_cons_of_pos (by simpa using hslash), List.mem_reverse]
    exact List.mem_cons_self
  have hdrivers : ∀ name ∈ msvcDrivers, '\'' ∉ name ∧ '"' ∉ name := by decide
  rw [isMsvcDriver, ← Bool.not_eq_true, List.contains_iff_mem]
  intro hmem
  obtain ⟨hsingle, hdouble⟩ := hdrivers _ hmem
  rcases hc with rfl | rfl
  · exact hsingle (Text.mem_lower (by decide) (hname _ (by decide) (by decide)))
  · exact hdouble (Text.mem_lower (by decide) (hname _ (by decide) (by decide)))

/-- Quotes keep a word from being taken for a driver. -/
theorem Quoted.isMsvcDriver_written (hbare : q.isBare = true → isMsvcDriver q.text = false) :
    isMsvcDriver q.written = false := by
  cases q with
  | bare t hne hchars => exact hbare rfl
  | single t => exact isMsvcDriver_concat (.inl rfl) _
  | double t => exact isMsvcDriver_concat (.inr rfl) _

/-- No blanks are written but those that are meant. -/
theorem Quoted.not_mem_written (h : ' ' ∉ q.text) : ' ' ∉ q.written := by
  have hflat : ∀ {write : Char → Text} {t : Text}, ' ' ∉ t → (∀ c, c ≠ ' ' → ' ' ∉ write c) →
      ' ' ∉ t.flatMap write := by
    intro write t ht hwrite hmem
    obtain ⟨c, hc, hblank⟩ := List.mem_flatMap.mp hmem
    exact hwrite c (fun heq => ht (heq ▸ hc)) hblank
  have hsingle : ∀ c, c ≠ ' ' → ' ' ∉ inSingle c := by
    intro c hc
    rw [inSingle]
    split
    · decide
    · simpa using hc.symm
  have hdouble : ∀ c, c ≠ ' ' → ' ' ∉ inDouble c := by
    intro c hc
    rw [inDouble]
    split
    · simpa using hc.symm
    · simpa using hc.symm
  cases q with
  | bare t hne hbare => exact h
  | single t => simpa [written] using hflat (t := t) h hsingle
  | double t => simpa [written] using hflat (t := t) h hdouble

/-- The first word is what stands in front of the first blank. -/
theorem takeWhile_quotedCommand (h : ' ' ∉ q.text) (words : List Quoted) :
    (quotedCommand (q :: words)).takeWhile (· ≠ ' ') = q.written := by
  have hwhole : ∀ c ∈ q.written, (decide (c ≠ ' ')) = true := by
    intro c hc
    exact decide_eq_true fun heq => q.not_mem_written h (heq ▸ hc)
  by_cases hne : words = []
  · subst hne
    rw [quotedCommand, List.map_singleton, Text.join, List.intercalate_singleton]
    exact List.takeWhile_eq_self_iff.mpr hwhole
  · have hwritten : words.map Quoted.written ≠ [] := by simpa using hne
    rw [quotedCommand, List.map_cons, Text.join_cons_of_ne_nil hwritten, List.append_assoc,
      List.takeWhile_append_of_pos hwhole]
    simp

end Command

namespace Database

open Command

/-- **Splitting undoes quoting.**

Let the command of an entry be a quoted command, where a half counts as the character in its place, and let
there be no list of words. If the first word has no blank, and is no driver of the MSVC style where it is
bare, then the words of the entry are those that were quoted. -/
theorem entryWords_quoted (fields : Table Json Letters) (command : Letters) (words : List Quoted)
    (hcommand : fields.get? "command" = some (.string command))
    (htext : command.toText = quotedCommand words)
    (hhollow : ∀ v, fields.get? "arguments" = some v → v.isHollow = true)
    (hfirst : ∀ q ∈ words.head?, ' ' ∉ q.text ∧ (q.isBare = true → isMsvcDriver q.text = false)) :
    entryWords fields = .ok (words.map Quoted.text) := by
  have hshell : isMsvcDriver ((quotedCommand words).takeWhile (· ≠ ' ')) = false := by
    cases words with
    | nil => rfl
    | cons q words =>
      obtain ⟨hblank, hbare⟩ := hfirst q rfl
      rw [takeWhile_quotedCommand hblank, q.isMsvcDriver_written hbare]
  rw [entryWords_of_text hhollow hcommand, htext, splitCommand_eq_shellWords (.inl hshell),
    shellWords_quotedCommand]
  rfl

/-- A quoted driver, a word with everything in it, an escape that is none, and no word at all. -/
theorem entryWords_quoted_mixed :
    let command : Text :=
      "'cl.exe' 'it'\"'\"'s \"x\"\\n' -DX=1 \"C:\\\\x \\\"y\\\"\n'\" '' \"\"".toList
    let words : List Text := ["cl.exe".toList, "it's \"x\"\\n".toList, "-DX=1".toList,
      "C:\\x \"y\"\n'".toList, [], []]
    isMsvcDriver "cl.exe" = true ∧ entryWords [("command", .text command)] = .ok words := by
  intro command words
  have hwords := entryWords_quoted [("command", .text command)] command
    [.single "cl.exe", .single "it's \"x\"\\n", .bare "-DX=1" (by decide) (by decide),
      .double "C:\\x \"y\"\n'", .single [], .double []]
    rfl (Letters.toText_ofText command) (by decide +kernel) (by decide +kernel)
  exact ⟨by decide +kernel, hwords⟩

end Database

end IncludeTrace
