import IncludeTrace.Proofs.Command.Directives
import IncludeTrace.Proofs.Command.Quoting
import IncludeTrace.Proofs.Command.Working

/-!
# Quoting for drivers of the MSVC style

A word for a driver of the MSVC style is written as it stands, or between double quotes if there are blanks
in it, and then perhaps with the flag in front of the quotes (`Command.DriverQuoted`). Such words are not
always read back. The driver convention keeps the quotes, or ends the word at the blank if a flag stands in
front of them; and a driver whose name is quoted is not seen, so that the shell convention is used, which
drops backslashes.

`Command.DriverQuoted.Kept` says which words survive in each convention, and
`Database.entryWords_driverQuoted` that a command is read back just if all of its words do. For this a word
that is not kept has to be misread whatever stands behind it (`Command.wordsBy_append_ne`): what is read
in its place has a quote or a blank in it that the word has not, or ends too early, or is too short.
-/

namespace IncludeTrace

namespace Command

/-- What may stand in front of the quotes. -/
def quotedFronts : List Text := [[], "/I", "-I"]

/-- A text may be written **bare** if it is not empty and has neither separators nor double quotes. -/
structure IsBare (t : Text) : Prop where
  ne_nil : t ≠ []
  whole : ∀ c ∈ t, isSeparator c = false
  mark_not_mem : '"' ∉ t

instance (t : Text) : Decidable (IsBare t) :=
  haveI := List.decidableBAll (fun c => isSeparator c = false) t
  decidable_of_iff (t ≠ [] ∧ (∀ c ∈ t, isSeparator c = false) ∧ '"' ∉ t)
    ⟨fun ⟨hne, hwhole, hmark⟩ => ⟨hne, hwhole, hmark⟩, fun h => ⟨h.ne_nil, h.whole, h.mark_not_mem⟩⟩

/-- A text is **quotable** if it has a separator and so needs quotes, has no double quotes of its own, and
does not end in a backslash. -/
structure IsQuotable (t : Text) : Prop where
  blank : ∃ c ∈ t, isSeparator c = true
  mark_not_mem : '"' ∉ t
  last_ne : t.getLast? ≠ some '\\'

instance (t : Text) : Decidable (IsQuotable t) :=
  haveI := List.decidableBEx (fun c => isSeparator c = true) t
  decidable_of_iff ((∃ c ∈ t, isSeparator c = true) ∧ '"' ∉ t ∧ t.getLast? ≠ some '\\')
    ⟨fun ⟨hblank, hmark, hlast⟩ => ⟨hblank, hmark, hlast⟩,
      fun h => ⟨h.blank, h.mark_not_mem, h.last_ne⟩⟩

/-- A **word for a driver**, with the way it is written: bare, or between double quotes, which may begin
behind a flag. -/
inductive DriverQuoted
  | bare (t : Text) (h : IsBare t)
  | quoted (front t : Text) (hfront : front ∈ quotedFronts) (h : IsQuotable t)

namespace DriverQuoted

/-- The word that is meant. -/
def text : DriverQuoted → Text
  | bare t _ => t
  | quoted front t _ _ => front ++ t

/-- The word as it is written. -/
def written : DriverQuoted → Text
  | bare t _ => t
  | quoted front t _ _ => front ++ '"' :: t ++ ['"']

/-- Whether a word is **kept**, by the driver convention or else by that of shells.

The driver convention keeps what is written as it stands; a single quote in front needs its counterpart at
the end, and only there. The shell convention keeps what has neither single quotes nor backslashes, and
between double quotes everything but a backslash behind another. -/
def Kept : Bool → DriverQuoted → Prop
  | true, bare t _ => t.head? = some '\'' → t.getLast? = some '\'' ∧ t.count '\'' = 2
  | true, quoted _ _ _ _ => False
  | false, bare t _ => Unquoted t
  | false, quoted _ t _ _ => t.IsChain fun c d => ¬ (c = '\\' ∧ d = '\\')

instance : (msvc : Bool) → DecidablePred (Kept msvc)
  | true, bare t _ =>
    inferInstanceAs (Decidable (t.head? = some '\'' → t.getLast? = some '\'' ∧ t.count '\'' = 2))
  | true, quoted _ _ _ _ => inferInstanceAs (Decidable False)
  | false, bare t _ => inferInstanceAs (Decidable (Unquoted t))
  | false, quoted _ t _ _ =>
    inferInstanceAs (Decidable (t.IsChain fun c d => ¬ (c = '\\' ∧ d = '\\')))

end DriverQuoted

/-- A **command for a driver** has its words apart by single blanks. -/
def driverCommand (words : List DriverQuoted) : Text := Text.join [' '] (words.map DriverQuoted.written)

/-- The words of a text by one convention or the other. -/
def wordsBy (msvc : Bool) (t : Text) : Except SplitFault (List Text) :=
  if msvc then driverWords t else shellWords t

variable {c : Char} {msvc : Bool} {q : DriverQuoted} {t rest w word : Text} {ws : List Text}

/-! ### Words under way -/

theorem map_cons_eq_ok_iff {r : Except SplitFault (List Text)} :
    r.map (word :: ·) = .ok (w :: ws) ↔ word = w ∧ r = .ok ws := by
  cases r <;> simp [Except.map]

/-- What was read of the word under way stays at the beginning of the word. -/
theorem prefix_of_driverWordsFrom {place : DriverPlace} (hplace : place ≠ .between)
    (h : driverWordsFrom place word t = .ok (w :: ws)) : word <+: w := by
  fun_induction driverWordsFrom place word t with
  | case1 | case4 | case5 | case6 => exact absurd rfl hplace
  | case2 word => cases h; exact List.prefix_rfl
  | case3 mark word => cases h
  | case7 word c t hc ih => exact (map_cons_eq_ok_iff.mp h).1 ▸ List.prefix_rfl
  | case8 word c t hc ih => exact (List.prefix_append word [c]).trans (ih (nomatch ·) h)
  | case9 word c t ih => exact (map_cons_eq_ok_iff.mp h).1 ▸ List.prefix_append _ _
  | case10 mark word c t hc ih => exact (List.prefix_append word [c]).trans (ih (nomatch ·) h)

theorem prefix_of_shellWordsFrom {place : ShellPlace} (hplace : place ≠ .between)
    (h : shellWordsFrom place word t = .ok (w :: ws)) : word <+: w := by
  fun_induction shellWordsFrom place word t with
  | case1 | case7 | case8 | case9 | case10 | case11 => exact absurd rfl hplace
  | case2 => cases h; exact List.prefix_rfl
  | case3 | case4 | case5 | case6 => cases h
  | case12 => exact (map_cons_eq_ok_iff.mp h).1 ▸ List.prefix_rfl
  -- nothing is added to the word
  | case13 _ _ _ ih | case14 _ _ _ _ ih | case15 _ _ _ _ _ ih | case17 _ _ ih | case19 _ _ ih
  | case20 _ _ _ ih => exact ih (nomatch ·) h
  | case16 _ _ _ _ _ _ _ ih | case18 _ _ _ _ ih | case21 _ _ _ _ _ ih | case22 _ _ _ ih
  | case23 _ _ _ _ ih | case24 _ _ _ _ ih => exact (List.prefix_append _ _).trans (ih (nomatch ·) h)

/-! ### The driver convention -/

/-- What is written without separators goes into the word under way. -/
theorem driverWordsFrom_append (hwhole : ∀ c ∈ t, isSeparator c = false) (word rest : Text) :
    driverWordsFrom .word word (t ++ rest) = driverWordsFrom .word (word ++ t) rest := by
  induction t generalizing word with
  | nil => rw [List.nil_append, List.append_nil]
  | cons c t ih =>
    obtain ⟨hc, ht⟩ := List.forall_mem_cons.mp hwhole
    rw [List.cons_append, driverWordsFrom, if_neg (by simp [hc]), ih ht, List.append_assoc,
      List.singleton_append]

/-- Between quotes everything does up to the mark. -/
theorem driverWordsFrom_quoted_append {mark : Char} (hmark : mark ∉ t) (word rest : Text) :
    driverWordsFrom (.quoted mark) word (t ++ rest) =
      driverWordsFrom (.quoted mark) (word ++ t) rest := by
  induction t generalizing word with
  | nil => rw [List.nil_append, List.append_nil]
  | cons c t ih =>
    obtain ⟨hc, ht⟩ := List.ne_and_not_mem_of_not_mem_cons hmark
    rw [List.cons_append, driverWordsFrom, if_neg hc.symm, ih ht, List.append_assoc,
      List.singleton_append]

theorem driverWordsFrom_closed {mark : Char} (hmark : mark ∉ t) (word rest : Text) :
    driverWordsFrom (.quoted mark) word (t ++ mark :: rest) =
      (driverWords rest).map ((word ++ t ++ [mark]) :: ·) := by
  rw [driverWordsFrom_quoted_append hmark, driverWordsFrom, if_pos rfl, driverWords]

/-- A word ends where nothing or a blank stands behind it. -/
theorem driverWordsFrom_of_end (hrest : ∀ c ∈ rest.head?, c = ' ') (word : Text) :
    driverWordsFrom .word word rest = (driverWords rest).map (word :: ·) := by
  cases rest with
  | nil => rfl
  | cons c rest =>
    obtain rfl := hrest c rfl
    rw [driverWordsFrom, if_pos (by decide), driverWords, driverWordsFrom, if_pos (by decide)]

/-- A single quote at both ends and none between them, said by counting. -/
theorem closed_iff : (('\'' :: t).getLast? = some '\'' ∧ ('\'' :: t).count '\'' = 2) ↔
    ∃ u, t = u ++ ['\''] ∧ '\'' ∉ u := by
  rcases t.eq_nil_or_concat with rfl | ⟨u, c, rfl⟩
  · simp
  · have hlast : ('\'' :: (u ++ [c])).getLast? = some c := by
      rw [← List.cons_append, List.getLast?_concat]
    rw [List.concat_eq_append, hlast, Option.some.injEq]
    constructor
    · rintro ⟨rfl, hcount⟩
      refine ⟨u, rfl, List.count_eq_zero.mp ?_⟩
      simpa using hcount
    · rintro ⟨v, hv, hmark⟩
      obtain ⟨rfl, hc⟩ := List.append_inj' hv rfl
      obtain rfl := (List.cons.inj hc).1
      simp [List.count_eq_zero.mpr hmark]

/-- **The driver convention keeps a word** that is written as it stands, if no single quote opens in it that
is closed elsewhere than at its end. -/
theorem driverWords_append_of_kept (h : q.Kept true) (hrest : ∀ c ∈ rest.head?, c = ' ') :
    driverWords (q.written ++ rest) = (driverWords rest).map (q.text :: ·) := by
  cases q with
  | quoted front t hfront hquote => exact h.elim
  | bare t hbare =>
    obtain ⟨c, t, rfl⟩ := List.exists_cons_of_ne_nil hbare.ne_nil
    obtain ⟨hc, ht⟩ := List.forall_mem_cons.mp hbare.whole
    change driverWordsFrom .between [] (c :: (t ++ rest)) = (driverWords rest).map ((c :: t) :: ·)
    rw [driverWordsFrom, if_neg (by simp [hc])]
    by_cases hsingle : c = '\''
    · subst hsingle
      obtain ⟨u, rfl, hu⟩ := closed_iff.mp (h rfl)
      rw [if_pos (.inl rfl), List.append_assoc]
      exact driverWordsFrom_closed hu ['\''] rest
    · have hdouble : c ≠ '"' := fun heq => hbare.mark_not_mem (heq ▸ List.mem_cons_self)
      rw [if_neg (by simp [hsingle, hdouble]), driverWordsFrom_append ht, driverWordsFrom_of_end hrest]
      rfl

/-- Behind a double quote, and the flag in front of it, the word under way has the quote in it. -/
theorem exists_driverWords_quoted {front : Text} (hfront : front ∈ quotedFronts) (t : Text) :
    ∃ place word, place ≠ .between ∧ '"' ∈ word ∧
      driverWords (front ++ '"' :: t) = driverWordsFrom place word t := by
  simp only [quotedFronts, List.mem_cons, List.not_mem_nil, or_false] at hfront
  rcases hfront with rfl | rfl | rfl
  · exact ⟨.quoted '"', "\"".toList, nofun, by decide, rfl⟩
  · exact ⟨.word, "/I\"".toList, nofun, by decide, rfl⟩
  · exact ⟨.word, "-I\"".toList, nofun, by decide, rfl⟩

theorem DriverQuoted.mark_not_mem_text (q : DriverQuoted) : '"' ∉ q.text := by
  cases q with
  | bare t hbare => exact hbare.mark_not_mem
  | quoted front t hfront hquote =>
    have hfronts : ∀ front ∈ quotedFronts, '"' ∉ front := by decide
    exact fun hmem => (List.mem_append.mp hmem).elim (hfronts front hfront) hquote.mark_not_mem

/-- **The driver convention misreads other words**: what it reads in the place of the word has a double
quote or a blank in it, or ends at a single quote in the midst of the word. -/
theorem driverWords_append_ne (h : ¬ q.Kept true) (hrest : ∀ c ∈ rest.head?, c = ' ') (ws : List Text) :
    driverWords (q.written ++ rest) ≠ .ok (q.text :: ws) := by
  intro heq
  cases q with
  | quoted front t hfront hquote =>
    obtain ⟨place, word, hplace, hmem, hopen⟩ := exists_driverWords_quoted hfront (t ++ '"' :: rest)
    have hwritten : front ++ '"' :: (t ++ '"' :: rest) =
        (DriverQuoted.quoted front t hfront hquote).written ++ rest := by
      simp [DriverQuoted.written]
    rw [← hwritten, hopen] at heq
    exact DriverQuoted.mark_not_mem_text _ ((prefix_of_driverWordsFrom hplace heq).mem hmem)
  | bare t hbare =>
    obtain ⟨hhead, hclosed⟩ := Classical.not_imp.mp h
    obtain ⟨t, rfl⟩ : ∃ u, t = '\'' :: u := by
      obtain ⟨c, u, rfl⟩ := List.exists_cons_of_ne_nil hbare.ne_nil
      exact ⟨u, by rw [Option.some.inj hhead]⟩
    change driverWordsFrom (.quoted '\'') ['\''] (t ++ rest) = .ok (('\'' :: t) :: ws) at heq
    by_cases hmem : '\'' ∈ t
    · -- the next single quote ends what is read, so it has to end the word
      obtain ⟨u, v, rfl, hu⟩ := List.eq_append_cons_of_mem hmem
      rw [List.append_assoc, List.cons_append, driverWordsFrom_closed hu, map_cons_eq_ok_iff] at heq
      obtain rfl : v = [] := by simpa using heq.1
      exact hclosed (closed_iff.mpr ⟨u, rfl, hu⟩)
    · -- the single quote stays open, and the blank behind the word goes into it
      rw [driverWordsFrom_quoted_append hmem] at heq
      cases rest with
      | nil => cases heq
      | cons c rest =>
        obtain rfl := hrest c rfl
        rw [driverWordsFrom, if_neg (by decide)] at heq
        have hblank : ' ' ∈ '\'' :: t :=
          (prefix_of_driverWordsFrom (by simp) heq).mem (List.mem_append_right _ List.mem_cons_self)
        exact absurd (hbare.whole _ hblank) (by decide)

/-! ### The convention of shells -/

/-- What the shell convention leaves of a text between double quotes: one of two backslashes. -/
def halved : Text → Text
  | '\\' :: '\\' :: t => '\\' :: halved t
  | c :: t => c :: halved t
  | [] => []

theorem length_halved_le (t : Text) : (halved t).length ≤ t.length := by
  fun_induction halved t with
  | case1 t ih => exact Nat.le_succ_of_le (Nat.succ_le_succ ih)
  | case2 c t hpair ih => exact Nat.succ_le_succ ih
  | case3 => exact Nat.le_refl _

/-- All is left just if no backslash stands behind another. -/
theorem halved_eq_self_iff : halved t = t ↔ t.IsChain fun c d => ¬ (c = '\\' ∧ d = '\\') := by
  fun_induction halved t with
  | case1 t ih =>
    have hshort : halved t ≠ '\\' :: t := by
      intro heq
      have hle := length_halved_le t
      rw [heq, List.length_cons] at hle
      exact absurd hle (Nat.not_succ_le_self _)
    simp [hshort]
  | case2 c t hpair ih =>
    rw [List.cons.injEq, ih]
    cases t with
    | nil => simp
    | cons d t =>
      have hapart : ¬ (c = '\\' ∧ d = '\\') := by
        rintro ⟨rfl, rfl⟩
        exact hpair t rfl rfl
      rw [List.isChain_cons_cons]
      exact ⟨fun ⟨_, h⟩ => ⟨hapart, h⟩, fun ⟨_, h⟩ => ⟨rfl, h⟩⟩
  | case3 => simp

/-- A text between double quotes is read up to the second quote. -/
theorem shellWordsFrom_closed (hmark : '"' ∉ t) (hend : t.getLast? ≠ some '\\') (word rest : Text) :
    shellWordsFrom .double word (t ++ '"' :: rest) =
      shellWordsFrom .word (word ++ halved t) rest := by
  have hlater : ∀ {c : Char} {t : Text}, (c :: t).getLast? ≠ some '\\' → t.getLast? ≠ some '\\' := by
    intro c t hne hlast
    exact hne (by rw [List.getLast?_cons, hlast, Option.getD_some])
  fun_induction halved t generalizing word with
  | case1 t ih =>
    have hread := ih (by simpa using hmark) (hlater (hlater hend)) (word ++ ['\\'])
    rw [List.append_assoc, List.singleton_append] at hread
    exact hread
  | case2 c t hpair ih =>
    obtain ⟨hc, ht⟩ := List.ne_and_not_mem_of_not_mem_cons hmark
    have hread := ih ht (hlater hend) (word ++ [c])
    rw [List.append_assoc, List.singleton_append] at hread
    rw [← hread, List.cons_append, shellWordsFrom, if_neg hc.symm]
    by_cases hback : c = '\\'
    · -- the backslash waits for the next character, and both are taken
      subst hback
      obtain ⟨d, t, rfl⟩ : ∃ d u, t = d :: u := by
        refine List.exists_cons_of_ne_nil ?_
        rintro rfl
        exact hend rfl
      have hquote : d ≠ '"' := (List.ne_and_not_mem_of_not_mem_cons ht).1.symm
      have hnext : d ≠ '\\' := fun heq => hpair t rfl (heq ▸ rfl)
      have hneither : ¬ (d = '"' ∨ d = '\\') := not_or.mpr ⟨hquote, hnext⟩
      rw [if_pos rfl, List.cons_append, shellWordsFrom, shellWordsFrom, if_neg hneither, if_neg hquote,
        if_neg hnext, List.append_assoc, List.singleton_append]
    · rw [if_neg hback]
  | case3 => rw [List.nil_append, shellWordsFrom, if_pos rfl, List.append_nil]

/-- A word ends where nothing or a blank stands behind it. -/
theorem shellWordsFrom_of_end (hrest : ∀ c ∈ rest.head?, c = ' ') (word : Text) :
    shellWordsFrom .word word rest = (shellWords rest).map (word :: ·) := by
  cases rest with
  | nil => rfl
  | cons c rest =>
    obtain rfl := hrest c rfl
    rw [shellWordsFrom, if_pos (by decide), shellWords, shellWordsFrom, if_pos (by decide)]

/-- Quoted words come apart from what is behind them, whether they are kept or not. -/
theorem shellWords_quoted {front : Text} (hfront : front ∈ quotedFronts) (hquote : IsQuotable t)
    (hrest : ∀ c ∈ rest.head?, c = ' ') :
    shellWords (front ++ '"' :: (t ++ '"' :: rest)) =
      (shellWords rest).map ((front ++ halved t) :: ·) := by
  have hopen : shellWords (front ++ '"' :: (t ++ '"' :: rest)) =
      shellWordsFrom .double front (t ++ '"' :: rest) := by
    simp only [quotedFronts, List.mem_cons, List.not_mem_nil, or_false] at hfront
    rcases hfront with rfl | rfl | rfl <;> rfl
  rw [hopen, shellWordsFrom_closed hquote.mark_not_mem hquote.last_ne, shellWordsFrom_of_end hrest]

/-- **The shell convention keeps a word** without backslashes, and between quotes without two at a time. -/
theorem shellWords_append_of_kept (h : q.Kept false) (hrest : ∀ c ∈ rest.head?, c = ' ') :
    shellWords (q.written ++ rest) = (shellWords rest).map (q.text :: ·) := by
  cases q with
  | bare t hbare =>
    have hplain : IsPlainWord t := ⟨hbare.ne_nil, h, hbare.whole⟩
    exact (hplain.shellWordsFrom_append rest).trans (shellWordsFrom_of_end hrest t)
  | quoted front t hfront hquote =>
    have hread := shellWords_quoted hfront hquote hrest
    rw [halved_eq_self_iff.mpr h] at hread
    rw [DriverQuoted.written, List.append_assoc, List.append_assoc, List.cons_append, List.cons_append,
      List.nil_append]
    exact hread

/-- What is read of a text is not longer than the text, or has a blank in it. -/
theorem length_le_of_shellWordsFrom {place : ShellPlace}
    (hplace : place = .word ∨ place = .single ∨ place = .escape)
    (hwhole : ∀ c ∈ t, isSeparator c = false) (hmark : '"' ∉ t) (hrest : ∀ c ∈ rest.head?, c = ' ')
    (h : shellWordsFrom place word (t ++ rest) = .ok (w :: ws)) :
    ' ' ∈ w ∨ w.length ≤ word.length + t.length := by
  induction t generalizing place word with
  | nil =>
    rw [List.nil_append] at h
    rcases hplace with rfl | hplace
    · rw [shellWordsFrom_of_end hrest, map_cons_eq_ok_iff] at h
      exact .inr (h.1 ▸ Nat.le_refl _)
    · -- the word under way is not over, and a blank goes into it
      cases rest with
      | nil => rcases hplace with rfl | rfl <;> cases h
      | cons c rest =>
        obtain rfl := hrest c rfl
        have hbegins : word ++ [' '] <+: w := by
          rcases hplace with rfl | rfl
          · have hread : shellWordsFrom .single (word ++ [' ']) rest = .ok (w :: ws) := h
            exact prefix_of_shellWordsFrom (by simp) hread
          · have hread : shellWordsFrom .word (word ++ [' ']) rest = .ok (w :: ws) := h
            exact prefix_of_shellWordsFrom (by simp) hread
        exact .inl (hbegins.mem (List.mem_append_right _ List.mem_cons_self))
  | cons c t ih =>
    obtain ⟨hc, ht⟩ := List.forall_mem_cons.mp hwhole
    obtain ⟨hquote, hmark⟩ := List.ne_and_not_mem_of_not_mem_cons hmark
    have hkeep : ∀ {place : ShellPlace}, (place = .word ∨ place = .single ∨ place = .escape) →
        shellWordsFrom place (word ++ [c]) (t ++ rest) = .ok (w :: ws) →
        ' ' ∈ w ∨ w.length ≤ word.length + (c :: t).length := by
      intro place hplace h
      have hle := ih hplace ht hmark h
      rwa [List.length_append, List.length_singleton, Nat.add_assoc, Nat.add_comm 1] at hle
    have hdrop : ∀ {place : ShellPlace}, (place = .word ∨ place = .single ∨ place = .escape) →
        shellWordsFrom place word (t ++ rest) = .ok (w :: ws) →
        ' ' ∈ w ∨ w.length ≤ word.length + (c :: t).length :=
      fun hplace h => (ih hplace ht hmark h).imp_right Nat.le_succ_of_le
    rw [List.cons_append] at h
    rcases hplace with rfl | rfl | rfl
    · rw [shellWordsFrom, if_neg (by simp [hc])] at h
      split at h
      · exact hdrop (.inr (.inr rfl)) h
      · split at h
        · exact hdrop (.inr (.inl rfl)) h
        · rw [if_neg hquote.symm] at h
          exact hkeep (.inl rfl) h
    · rw [shellWordsFrom] at h
      split at h
      · exact hdrop (.inl rfl) h
      · exact hkeep (.inr (.inl rfl)) h
    · rw [shellWordsFrom] at h
      exact hkeep (.inl rfl) h

/-- It is shorter if there is a single quote or a backslash in it. -/
theorem length_lt_of_shellWordsFrom (hlost : ¬ Unquoted t) (hwhole : ∀ c ∈ t, isSeparator c = false)
    (hmark : '"' ∉ t) (hrest : ∀ c ∈ rest.head?, c = ' ')
    (h : shellWordsFrom .word word (t ++ rest) = .ok (w :: ws)) :
    ' ' ∈ w ∨ w.length < word.length + t.length := by
  induction t generalizing word with
  | nil => exact absurd (fun _ hc => nomatch hc) hlost
  | cons c t ih =>
    obtain ⟨hc, ht⟩ := List.forall_mem_cons.mp hwhole
    obtain ⟨hquote, hmark⟩ := List.ne_and_not_mem_of_not_mem_cons hmark
    rw [List.cons_append, shellWordsFrom, if_neg (by simp [hc])] at h
    split at h
    · exact (length_le_of_shellWordsFrom (.inr (.inr rfl)) ht hmark hrest h).imp_right Nat.lt_succ_of_le
    · split at h
      · exact (length_le_of_shellWordsFrom (.inr (.inl rfl)) ht hmark hrest h).imp_right Nat.lt_succ_of_le
      · next hback hsingle =>
        have hlater : ¬ Unquoted t := fun hunquoted =>
          hlost (List.forall_mem_cons.mpr ⟨⟨hback, hsingle, hquote.symm⟩, hunquoted⟩)
        rw [if_neg hquote.symm] at h
        have hlt := ih hlater ht hmark h
        rwa [List.length_append, List.length_singleton, Nat.add_assoc, Nat.add_comm 1] at hlt

/-- **The shell convention misreads other words**: what it reads in the place of the word is too short, or
has a blank in it. -/
theorem shellWords_append_ne (h : ¬ q.Kept false) (hrest : ∀ c ∈ rest.head?, c = ' ') (ws : List Text) :
    shellWords (q.written ++ rest) ≠ .ok (q.text :: ws) := by
  intro heq
  cases q with
  | bare t hbare =>
    have hfirst : shellWords (t ++ rest) = shellWordsFrom .word [] (t ++ rest) := by
      obtain ⟨c, t, rfl⟩ := List.exists_cons_of_ne_nil hbare.ne_nil
      have hc : ¬ isSeparator c = true := by simp [hbare.whole c List.mem_cons_self]
      rw [shellWords, List.cons_append, shellWordsFrom, shellWordsFrom, if_neg hc, if_neg hc,
        List.nil_append]
    have hread := hfirst.symm.trans heq
    rcases length_lt_of_shellWordsFrom h hbare.whole hbare.mark_not_mem hrest hread with hblank | hlt
    · exact absurd (hbare.whole _ hblank) (by decide)
    · simp [DriverQuoted.text] at hlt
  | quoted front t hfront hquote =>
    rw [DriverQuoted.written, List.append_assoc, List.append_assoc, List.cons_append, List.cons_append,
      List.nil_append, shellWords_quoted hfront hquote hrest, map_cons_eq_ok_iff] at heq
    exact h (halved_eq_self_iff.mp (List.append_cancel_left heq.1))

/-! ### Commands -/

theorem wordsBy_append_of_kept (h : q.Kept msvc) (hrest : ∀ c ∈ rest.head?, c = ' ') :
    wordsBy msvc (q.written ++ rest) = (wordsBy msvc rest).map (q.text :: ·) := by
  cases msvc with
  | true => exact driverWords_append_of_kept h hrest
  | false => exact shellWords_append_of_kept h hrest

theorem wordsBy_append_ne (h : ¬ q.Kept msvc) (hrest : ∀ c ∈ rest.head?, c = ' ') (ws : List Text) :
    wordsBy msvc (q.written ++ rest) ≠ .ok (q.text :: ws) := by
  cases msvc with
  | true => exact driverWords_append_ne h hrest ws
  | false => exact shellWords_append_ne h hrest ws

/-- Behind the first word of a command is nothing or a blank, and then the other words. -/
theorem exists_driverCommand_cons (q : DriverQuoted) (words : List DriverQuoted) :
    ∃ rest, driverCommand (q :: words) = q.written ++ rest ∧ (∀ c ∈ rest.head?, c = ' ') ∧
      ∀ msvc, wordsBy msvc rest = wordsBy msvc (driverCommand words) := by
  by_cases hne : words = []
  · subst hne
    refine ⟨[], ?_, nofun, fun _ => rfl⟩
    rw [driverCommand, List.map_singleton, Text.join, List.intercalate_singleton, List.append_nil]
  · have hwritten : words.map DriverQuoted.written ≠ [] := by simpa using hne
    refine ⟨' ' :: driverCommand words, ?_, fun c hc => (Option.some.inj hc).symm, fun msvc => ?_⟩
    · rw [driverCommand, List.map_cons, Text.join_cons_of_ne_nil hwritten, List.append_assoc]
      rfl
    · cases msvc <;> rfl

/-- **A command comes apart into its words just if all of them are kept.** -/
theorem wordsBy_driverCommand_iff (words : List DriverQuoted) :
    wordsBy msvc (driverCommand words) = .ok (words.map DriverQuoted.text) ↔
      ∀ q ∈ words, q.Kept msvc := by
  induction words with
  | nil => cases msvc <;> exact iff_of_true rfl nofun
  | cons q words ih =>
    obtain ⟨rest, hcommand, hrest, hwords⟩ := exists_driverCommand_cons q words
    rw [hcommand, List.map_cons, List.forall_mem_cons]
    by_cases h : q.Kept msvc
    · rw [wordsBy_append_of_kept h hrest, hwords, map_cons_eq_ok_iff, ih]
      simp [h]
    · exact iff_of_false (wordsBy_append_ne h hrest _) fun hkept => h hkept.1

/-- What stands in front of the first blank is written for the first word. -/
theorem takeWhile_driverCommand (q : DriverQuoted) (words : List DriverQuoted) :
    (driverCommand (q :: words)).takeWhile (· ≠ ' ') = q.written.takeWhile (· ≠ ' ') := by
  obtain ⟨rest, hcommand, hrest, -⟩ := exists_driverCommand_cons q words
  have hnone : rest.takeWhile (· ≠ ' ') = [] := by
    cases rest with
    | nil => rfl
    | cons c rest =>
      obtain rfl := hrest c rfl
      rfl
  rw [hcommand, List.takeWhile_append, hnone, List.append_nil]
  split
  · next hlength => exact (List.takeWhile_prefix _).eq_of_length hlength |>.symm
  · rfl

/-- The directory of every directive in a written command is found, under its key. -/
theorem exists_mem_searchDirectories {cwd working directory : Text} {arguments : List Argument}
    {a : Argument} {lone : Option Text}
    (hfits : ∀ a ∈ arguments, a.Fits (searchFlags (Command.written arguments lone)))
    (hlone : ∀ f ∈ lone, f ∈ searchFlags (Command.written arguments lone)) (ha : a ∈ arguments)
    (hdirectory : a.directory? = some directory) :
    ∃ e ∈ searchDirectories cwd (Command.written arguments lone) working,
      Path.key cwd e = Path.key cwd (fromWorking working directory) := by
  have hne : directory ≠ [] := by
    have hfit := hfits a ha
    cases a with
    | word w => cases hdirectory
    | apart flag d | joined flag d =>
      obtain rfl := Option.some.inj hdirectory
      exact hfit.2
  have hnamed : directory ∈ arguments.filterMap Argument.directory? :=
    List.mem_filterMap.mpr ⟨a, ha, hdirectory⟩
  rw [searchDirectories, directives_written (searchFlags_prefixFree _) hfits hlone]
  exact (exists_mem_distinctBy (List.mem_map_of_mem (List.mem_filter.mpr
    ⟨hnamed, by simpa using hne⟩))).resolve_left List.not_mem_nil

end Command

namespace Database

open Command

/-- **Splitting undoes the quoting for a driver just if all words are kept.**

Let the command of an entry be a command for a driver of the MSVC style, where a half counts as the
character in its place, and let there be no list of words. The words of the entry are those that were meant
just if each of them is kept by the driver convention, or else by that of shells if what is written in front
of the first blank is not seen to be a driver. Then every directory that the words name is found. -/
theorem entryWords_driverQuoted (fields : Table Json Letters) (command : Letters) (q : DriverQuoted)
    (words : List DriverQuoted) (hcommand : fields.get? "command" = some (.string command))
    (htext : command.toText = driverCommand (q :: words))
    (hhollow : ∀ v, fields.get? "arguments" = some v → v.isHollow = true)
    (hdriver : isMsvcDriver q.text = true) :
    let meant := (q :: words).map DriverQuoted.text
    let seen := isMsvcDriver (q.written.takeWhile (· ≠ ' '))
    (entryWords fields = .ok meant ↔ ∀ p ∈ q :: words, p.Kept seen) ∧
    (entryWords fields = .ok meant → "/I".toList ∈ searchFlags meant ∧
      ∀ (db : Database) (cwd path : Text) (u : TranslationUnit), db.find cwd path = .ok u →
        u.fields = fields → ∃ found, db.directories cwd path = .ok found ∧
          ∀ (arguments : List Argument) (lone : Option Text), written arguments lone = meant →
            (∀ a ∈ arguments, a.Fits (searchFlags meant)) → (∀ f ∈ lone, f ∈ searchFlags meant) →
            ∀ a ∈ arguments, ∀ d, a.directory? = some d →
              ∃ e ∈ found, Path.key cwd e = Path.key cwd (fromWorking u.directory d)) := by
  intro meant seen
  have hsplit : splitCommand (driverCommand (q :: words)) = wordsBy seen (driverCommand (q :: words)) := by
    rw [splitCommand, takeWhile_driverCommand, wordsBy]
  refine ⟨?_, fun hwords => ⟨?_, fun db cwd path u hfind hfields => ?_⟩⟩
  · rw [entryWords_of_text hhollow hcommand, htext, hsplit, ← wordsBy_driverCommand_iff]
    cases wordsBy seen (driverCommand (q :: words)) <;> simp [Except.mapError, meant]
  · simp [searchFlags, meant, hdriver]
  · have hdirectories : db.directories cwd path = .ok (searchDirectories cwd meant u.directory) := by
      rw [directories_of_find hfind, hfields, hwords]
      rfl
    refine ⟨_, hdirectories, fun arguments lone hmeant hfits hlone a ha d hd => ?_⟩
    rw [← hmeant] at hfits hlone ⊢
    exact exists_mem_searchDirectories hfits hlone ha hd

/-- A command without blanks in its words, for which a directory is found; and a quoted driver, behind which
blanks are kept, since the words without blanks have no backslashes. -/
theorem entryWords_driverQuoted_mixed :
    let plain : Text := "C:\\VC\\CL.exe /I..\\inc /c 'x' C:\\src\\a.cpp".toList
    let quoted : Text := "\"C:\\Program Files\\cl.exe\" /I\"C:\\my inc\" /c \"my a.cpp\"".toList
    let u : TranslationUnit := ⟨[("command", .text plain)], "C:\\src\\a.cpp", "C:/src/x"⟩
    let db : Database := ⟨"/b", "/b/compile_commands.json", .whole 300, [("c:/src/a.cpp", u)], []⟩
    (∃ found, db.directories "/w" "C:\\src\\a.cpp" = .ok found ∧
      ∃ e ∈ found, Path.key "/w" e = Path.key "/w" (fromWorking "C:/src/x" "..\\inc")) ∧
    entryWords [("command", .text quoted)] = .ok ["C:\\Program Files\\cl.exe".toList,
      "/IC:\\my inc".toList, "/c".toList, "my a.cpp".toList] := by
  intro plain quoted u db
  constructor
  · obtain ⟨hkept, hfound⟩ := entryWords_driverQuoted u.fields plain
      (.bare "C:\\VC\\CL.exe" (by decide +kernel))
      [.bare "/I..\\inc" (by decide +kernel),
        .bare "/c" (by decide +kernel),
        .bare "'x'" (by decide +kernel),
        .bare "C:\\src\\a.cpp" (by decide +kernel)]
      rfl (Letters.toText_ofText plain) (by decide +kernel) (by decide +kernel)
    obtain ⟨-, hdirectories⟩ := hfound (hkept.mpr (by decide +kernel))
    obtain ⟨found, hok, hkeys⟩ := hdirectories db "/w" "C:\\src\\a.cpp" u rfl rfl
    refine ⟨found, hok, hkeys [.word "C:\\VC\\CL.exe", .joined "/I" "..\\inc", .word "/c", .word "'x'",
      .word "C:\\src\\a.cpp"] none rfl (by decide +kernel) nofun (.joined "/I" "..\\inc") ?_ _ rfl⟩
    decide
  · exact (entryWords_driverQuoted _ quoted
      (.quoted [] "C:\\Program Files\\cl.exe" (by decide +kernel) (by decide +kernel))
      [.quoted "/I" "C:\\my inc" (by decide +kernel) (by decide +kernel),
        .bare "/c" (by decide +kernel),
        .quoted [] "my a.cpp" (by decide +kernel) (by decide +kernel)]
      rfl (Letters.toText_ofText quoted) (by decide +kernel) (by decide +kernel)).1.mpr (by decide +kernel)

/-- **Quotes stay in the words of a driver**, around a whole word or behind the flag, and the directory is
not found. -/
theorem driver_quotes_stay :
    let u (command : Text) : TranslationUnit := ⟨[("command", .text command)], "/w/a.cpp", "/w"⟩
    let db (command : Text) : Database :=
      ⟨"/b", "/b/compile_commands.json", .whole 300, [("/w/a.cpp", u command)], []⟩
    let cl : DriverQuoted := .bare "cl" (by decide +kernel)
    let source : DriverQuoted := .bare "a.cpp" (by decide +kernel)
    let whole := driverCommand
      [cl, .quoted [] "/IC:\\my inc" (by decide +kernel) (by decide +kernel), source]
    let behind := driverCommand
      [cl, .quoted "/I" "C:\\my inc" (by decide +kernel) (by decide +kernel), source]
    whole = "cl \"/IC:\\my inc\" a.cpp".toList ∧
      (entryWords (u whole).fields).toOption =
        some ["cl".toList, "\"/IC:\\my inc\"".toList, "a.cpp".toList] ∧
      ((db whole).directories "/w" "/w/a.cpp").toOption = some [] ∧
    behind = "cl /I\"C:\\my inc\" a.cpp".toList ∧
      (entryWords (u behind).fields).toOption =
        some ["cl".toList, "/I\"C:\\my".toList, "inc\"".toList, "a.cpp".toList] ∧
      ((db behind).directories "/w" "/w/a.cpp").toOption = some ["/w/\"C:\\my".toList] := by
  decide +kernel

/-- **A quoted driver is not seen**, and the words behind it lose their backslashes. -/
theorem quoted_driver_drops_backslashes :
    let command := driverCommand
      [.quoted [] "C:\\Program Files\\cl.exe" (by decide +kernel) (by decide +kernel),
        .bare "/c" (by decide +kernel),
        .bare "C:\\src\\a.cpp" (by decide +kernel)]
    command = "\"C:\\Program Files\\cl.exe\" /c C:\\src\\a.cpp".toList ∧
      (entryWords [("command", .text command)]).toOption =
        some ["C:\\Program Files\\cl.exe".toList, "/c".toList, "C:srca.cpp".toList] := by
  decide +kernel

end Database

end IncludeTrace
