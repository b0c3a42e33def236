import IncludeTrace.Text.Casing
import Mathlib.Tactic.Common

/-!
# What lower case leaves alone

Lower case makes letters, and no other characters of ASCII. So a character below the small letters
stands in a text in lower case only if it stood there before: `Text.mem_of_mem_lower`. And what has no
lower case of its own stays: `Text.mem_lower`.

What lower case has made it leaves alone (`Text.lower_lower`), because no run of the table leads to a
character that a run starts from. The rule about the final sigma does not get in the way: there is no
sigma left that it could be about. It looks at the characters nearby, but not past one that is neither
cased nor looked through, so texts may be cut there (`Text.lower_append_cons`).
-/

namespace IncludeTrace

namespace Casing

/-! ### The table -/

/-- Whether a run **moves** a code point. -/
def Run.moves (run : Run) (n : ℕ) : Bool :=
  run.first.ble n && n.ble run.last && ((n - run.first) % run.stride).beq 0

/-- What no run moves stays. -/
theorem target_eq_self {n : ℕ} {rs : List Run} (h : ∀ run ∈ rs, run.moves n = false) :
    target n rs = n := by
  induction rs with
  | nil => rfl
  | cons run rest ih =>
    obtain ⟨hrun, hrest⟩ := List.forall_mem_cons.mp h
    rw [target]
    split
    · rfl
    · next hfirst =>
      split
      · next hlast =>
        refine if_neg fun hstride => ?_
        have hmoves : run.moves n = true := by
          simp only [Run.moves, Bool.and_eq_true, Nat.ble_eq, Nat.beq_eq]
          exact ⟨⟨Nat.le_of_not_lt hfirst, hlast⟩, hstride⟩
        rw [hmoves] at hrun
        cases hrun
      · exact ih hrest

/-- What holds of a code point and of everything that runs lead to holds of what it becomes. -/
theorem of_target {P : ℕ → Prop} {n : ℕ} {rs : List Run} (hn : P n)
    (hrs : ∀ run ∈ rs, ∀ k ≤ run.last - run.first, k % run.stride = 0 → P (run.target + k)) :
    P (target n rs) := by
  induction rs with
  | nil => exact hn
  | cons run rest ih =>
    obtain ⟨hrun, hrest⟩ := List.forall_mem_cons.mp hrs
    rw [target]
    split
    · exact hn
    · split
      · split
        · next hstride => exact hrun _ (by omega) hstride
        · exact hn
      · exact ih hrest

/-- Runs lead to characters that do not come before the small letters. -/
theorem valid_runs : ∀ run ∈ runs, 0x61 ≤ run.target ∧
    (run.target + (run.last - run.first) < 0xD800 ∨
      0xDFFF < run.target ∧ run.target + (run.last - run.first) < 0x110000) := by
  decide +kernel

/-- The runs, and the dotted capital I as one of its own. -/
def capitals : List Run := ⟨0x130, 0x130, 1, 0x69⟩ :: runs

/-- No run leads to a capital. Runs are compared one with another, and point by point only where they
meet. -/
theorem settled_runs : (runs.all fun run => capitals.all fun other =>
    (run.target + (run.last - run.first)).blt other.first || other.last.blt run.target ||
      (List.range (run.last - run.first + 1)).all fun k =>
        !(k % run.stride).beq 0 || !other.moves (run.target + k)) = true := by
  decide +kernel

theorem not_moves_of_run {run other : Run} (hrun : run ∈ runs) (hother : other ∈ capitals) {k : ℕ}
    (hk : k ≤ run.last - run.first) (hstride : k % run.stride = 0) :
    other.moves (run.target + k) = false := by
  have hsettled := List.all_eq_true.mp (List.all_eq_true.mp settled_runs run hrun) other hother
  rw [Bool.or_eq_true, Bool.or_eq_true] at hsettled
  rcases hsettled with (hbefore | hbehind) | hmeet
  · have hlt := Nat.blt_eq.mp hbefore
    rw [Bool.eq_false_iff]
    simp only [Run.moves, ne_eq, Bool.and_eq_true, Nat.ble_eq]
    omega
  · have hlt := Nat.blt_eq.mp hbehind
    rw [Bool.eq_false_iff]
    simp only [Run.moves, ne_eq, Bool.and_eq_true, Nat.ble_eq]
    omega
  · have hpoint := List.all_eq_true.mp hmeet k (List.mem_range.mpr (Nat.lt_succ_of_le hk))
    simpa [hstride] using hpoint

/-! ### Single characters -/

/-- In ASCII too, the table says what a character becomes. -/
theorem lowerChar_eq_ofNat (c : Char) : lowerChar c = Char.ofNat (target c.toNat runs) := by
  by_cases h : c.toNat < 128
  · have hascii : ∀ n < 128, lowerChar (Char.ofNat n) = Char.ofNat (target n runs) := by
      decide +kernel
    simpa only [Char.ofNat_toNat] using hascii c.toNat h
  · rw [lowerChar, if_neg h]

/-- A character stays, or becomes one that does not come before the small letters and is no capital. -/
theorem lowerChar_cases (c : Char) : lowerChar c = c ∨
    0x61 ≤ (lowerChar c).toNat ∧ ∀ other ∈ capitals, other.moves (lowerChar c).toNat = false := by
  have hback : ∀ n, n.isValidChar → (Char.ofNat n).toNat = n := fun n hn => by
    rw [Char.ofNat, dif_pos hn]
    rfl
  rw [lowerChar_eq_ofNat]
  refine of_target (P := fun n => Char.ofNat n = c ∨
    0x61 ≤ (Char.ofNat n).toNat ∧ ∀ other ∈ capitals, other.moves (Char.ofNat n).toNat = false)
      (.inl c.ofNat_toNat) fun run hrun k hk hstride => .inr ?_
  have hvalid := valid_runs run hrun
  rw [hback _ (by unfold Nat.isValidChar; omega)]
  exact ⟨by omega, fun other hother => not_moves_of_run hrun hother hk hstride⟩

/-- A character is **small** if lower case leaves it alone, wherever it stands. -/
def IsSmall (d : Char) : Prop := lowerChar d = d ∧ d ≠ 'İ' ∧ d ≠ 'Σ'

instance : DecidablePred IsSmall := fun d => inferInstanceAs (Decidable (lowerChar d = d ∧ _))

/-- What a character becomes is small. -/
theorem isSmall_lowerChar {c : Char} (hdotted : c ≠ 'İ') (hsigma : c ≠ 'Σ') :
    IsSmall (lowerChar c) := by
  rcases lowerChar_cases c with hsame | ⟨-, hcapital⟩
  · rw [hsame]
    exact ⟨hsame, hdotted, hsigma⟩
  · have hne : ∀ d : Char, (∃ other ∈ capitals, other.moves d.toNat = true) → lowerChar c ≠ d := by
      rintro d ⟨other, hother, hmoves⟩ rfl
      rw [hcapital other hother] at hmoves
      cases hmoves
    refine ⟨?_, hne 'İ' (by decide +kernel), hne 'Σ' (by decide +kernel)⟩
    rw [lowerChar_eq_ofNat (lowerChar c), target_eq_self fun run hrun =>
      hcapital run (List.mem_cons_of_mem _ hrun), Char.ofNat_toNat]

/-! ### Texts -/

/-- What the first character becomes comes in front of the rest. It is small, and it is the character
itself or does not lie below the small letters. -/
theorem exists_lowerFrom_cons (inWord : Bool) (c : Char) (t : Text) :
    ∃ made inWord', lowerFrom inWord (c :: t) = made ++ lowerFrom inWord' t ∧ made ≠ [] ∧
      (∀ d ∈ made, IsSmall d) ∧ (made = [c] ∨ ∀ d ∈ made, 0x61 ≤ d.toNat) := by
  simp only [lowerFrom]
  -- the capital I with a dot becomes two characters, and the sigma depends on its neighbours
  split
  · refine ⟨['i', '\u0307'], _, rfl, by decide, List.forall_mem_cons.mpr ⟨by decide +kernel,
      List.forall_mem_singleton.mpr (by decide +kernel)⟩, .inr (List.forall_mem_cons.mpr ⟨by decide,
      List.forall_mem_singleton.mpr (by decide)⟩)⟩
  · next hdotted =>
    split
    · refine ⟨[_], _, rfl, List.cons_ne_nil _ _, List.forall_mem_singleton.mpr ?_,
        .inr (List.forall_mem_singleton.mpr ?_)⟩
      · split <;> decide +kernel
      · split <;> decide
    · next hsigma =>
      refine ⟨[lowerChar c], _, rfl, List.cons_ne_nil _ _,
        List.forall_mem_singleton.mpr (isSmall_lowerChar hdotted hsigma), ?_⟩
      exact (lowerChar_cases c).imp (congrArg fun d => [d])
        fun h => List.forall_mem_singleton.mpr h.1

theorem isSmall_of_mem_lowerFrom {inWord : Bool} {t : Text} : ∀ d ∈ lowerFrom inWord t, IsSmall d := by
  induction t generalizing inWord with
  | nil => exact List.forall_mem_nil _
  | cons c t ih =>
    obtain ⟨made, inWord', hmade, -, hsmall, -⟩ := exists_lowerFrom_cons inWord c t
    rw [hmade]
    exact List.forall_mem_append.mpr ⟨hsmall, ih⟩

theorem lowerFrom_of_isSmall {t : Text} (h : ∀ d ∈ t, IsSmall d) (inWord : Bool) :
    lowerFrom inWord t = t := by
  induction t generalizing inWord with
  | nil => rfl
  | cons d t ih =>
    obtain ⟨hd, ht⟩ := List.forall_mem_cons.mp h
    simp [lowerFrom, hd.1, hd.2, ih ht]

/-- A character that is neither cased nor looked through **divides** a text: no rule of casing looks past
it. It is to be small itself. -/
def Divides (d : Char) : Prop := IsSmall d ∧ isCased d = false ∧ isIgnorable d = false

instance : DecidablePred Divides := fun d => inferInstanceAs (Decidable (IsSmall d ∧ _))

theorem lowerFrom_append_cons {d : Char} (hd : Divides d) (inWord : Bool) (t s : Text) :
    lowerFrom inWord (t ++ d :: s) = lowerFrom inWord t ++ d :: lowerFrom false s := by
  obtain ⟨⟨hlower, hdotted, hsigma⟩, hcased, hignorable⟩ := hd
  have hword : ∀ t : Text, wordGoesOn (t ++ d :: s) = wordGoesOn t := by
    intro t
    induction t with
    | nil => simp [wordGoesOn, hcased, hignorable]
    | cons c t ih => simp [wordGoesOn, ih]
  induction t generalizing inWord with
  | nil => simp [lowerFrom, hlower, hdotted, hsigma, hcased, hignorable]
  | cons c t ih =>
    simp only [List.cons_append, lowerFrom, hword, ih]
    split
    · rfl
    · split <;> rfl

end Casing

namespace Text

variable {d : Char} {t : Text}

/-- **A character below the small letters is not made by lower case.** -/
theorem mem_of_mem_lower (hd : d.toNat < 0x61) (h : d ∈ t.lower) : d ∈ t := by
  have hrun : ∀ inWord, d ∈ Casing.lowerFrom inWord t → d ∈ t := by
    clear h
    induction t with
    | nil => exact fun _ h => h
    | cons c t ih =>
      intro inWord h
      obtain ⟨made, inWord', hmade, -, -, hself⟩ := Casing.exists_lowerFrom_cons inWord c t
      rw [hmade, List.mem_append] at h
      rcases h with h | h
      · rcases hself with rfl | hlate
        · exact List.mem_singleton.mp h ▸ List.mem_cons_self
        · exact absurd (hlate d h) (by omega)
      · exact List.mem_cons_of_mem c (ih inWord' h)
  exact hrun false h

/-- **A character without a lower case of its own stays.** -/
theorem mem_lower (hd : Casing.IsSmall d) (h : d ∈ t) : d ∈ t.lower := by
  have hrun : ∀ inWord, d ∈ Casing.lowerFrom inWord t := by
    induction t with
    | nil => cases h
    | cons c t ih =>
      intro inWord
      rcases List.mem_cons.mp h with rfl | ht
      · simp [Casing.lowerFrom, hd.1, hd.2]
      · obtain ⟨made, inWord', hmade, -⟩ := Casing.exists_lowerFrom_cons inWord c t
        rw [hmade]
        exact List.mem_append_right made (ih ht inWord')
  exact hrun false

/-- **Lower case leaves alone what it made.** -/
@[simp]
theorem lower_lower (t : Text) : t.lower.lower = t.lower :=
  Casing.lowerFrom_of_isSmall Casing.isSmall_of_mem_lowerFrom false

/-- **Texts may be put in lower case on both sides of a character that divides them.** -/
theorem lower_append_cons (hd : Casing.Divides d) (t s : Text) :
    lower (t ++ d :: s) = t.lower ++ d :: s.lower := Casing.lowerFrom_append_cons hd false t s

/-- A text of small characters below the small letters is the lower case of no other text. -/
theorem lower_eq_iff {s : Text} (hs : ∀ d ∈ s, Casing.IsSmall d ∧ d.toNat < 0x61) :
    t.lower = s ↔ t = s := by
  have hrun : ∀ inWord, Casing.lowerFrom inWord t = s → t = s := by
    induction t generalizing s with
    | nil => exact fun _ h => h
    | cons c t ih =>
      intro inWord h
      obtain ⟨made, inWord', hmade, hne, -, hself⟩ := Casing.exists_lowerFrom_cons inWord c t
      rw [hmade] at h
      subst h
      obtain ⟨hsmade, hrest⟩ := List.forall_mem_append.mp hs
      rcases hself with rfl | hlate
      · rw [← ih hrest inWord' rfl]
        rfl
      · obtain ⟨d, hd⟩ := List.exists_mem_of_ne_nil made hne
        exact absurd (hlate d hd) (by have := (hsmade d hd).2; omega)
  refine ⟨hrun false, ?_⟩
  rintro rfl
  exact Casing.lowerFrom_of_isSmall (fun d hd => (hs d hd).1) false

end Text

namespace Casing

/-! ### The case of ASCII letters -/

/-- What relates a character to itself, and the capital letters of ASCII to the small ones, relates each
character to the one that ASCII has for it in lower case. -/
theorem of_toLower {P : Char → Char → Prop} (hself : ∀ c, P c c)
    (hletter : ∀ n < 26, P (Char.ofNat (0x41 + n)) (Char.ofNat (0x41 + n)).toLower) (c : Char) :
    P c c.toLower := by
  by_cases hc : 'A'.toNat ≤ c.toNat ∧ c.toNat ≤ 'Z'.toNat
  · obtain ⟨n, hn⟩ := Nat.exists_eq_add_of_le hc.1
    have hlast : 'A'.toNat + n < 'A'.toNat + 26 := hn ▸ Nat.lt_succ_of_le hc.2
    have hchar : c = Char.ofNat (0x41 + n) := by rw [← Char.ofNat_toNat c, hn]; rfl
    rw [hchar]
    exact hletter n (by omega)
  · have hsame : c.toLower = c := dif_neg hc
    rw [hsame]
    exact hself c

@[simp]
theorem isIgnorable_toLower (c : Char) : isIgnorable c.toLower = isIgnorable c :=
  of_toLower (P := fun c d => isIgnorable d = isIgnorable c) (fun _ => rfl) (by decide +kernel) c

@[simp]
theorem isCased_toLower (c : Char) : isCased c.toLower = isCased c :=
  of_toLower (P := fun c d => isCased d = isCased c) (fun _ => rfl) (by decide +kernel) c

@[simp]
theorem lowerChar_toLower (c : Char) : lowerChar c.toLower = lowerChar c :=
  of_toLower (P := fun c d => lowerChar d = lowerChar c) (fun _ => rfl) (by decide +kernel) c

/-- Only letters of ASCII change. -/
theorem toLower_eq_iff {c d : Char} (hd : d.isAlpha = false) : c.toLower = d ↔ c = d := by
  have hletters : c.toLower = c ∨ c.toLower.isAlpha = true ∧ c.isAlpha = true :=
    of_toLower (P := fun c d => d = c ∨ d.isAlpha = true ∧ c.isAlpha = true) (fun _ => .inl rfl)
      (by decide +kernel) c
  rcases hletters with hsame | ⟨hlower, hc⟩
  · rw [hsame]
  · refine iff_of_false ?_ ?_ <;> rintro rfl <;> simp_all

theorem wordGoesOn_map_toLower (t : Text) : wordGoesOn (t.map Char.toLower) = wordGoesOn t := by
  induction t with
  | nil => rfl
  | cons c t ih => simp only [List.map_cons, wordGoesOn, isIgnorable_toLower, isCased_toLower, ih]

end Casing

open Casing in
/-- **Lower case takes no notice of the case of ASCII letters**, here or in its rule about the sigma. -/
theorem Text.lower_map_toLower (t : Text) : Text.lower (t.map Char.toLower) = t.lower := by
  have hrun : ∀ inWord, lowerFrom inWord (t.map Char.toLower) = lowerFrom inWord t := by
    induction t with
    | nil => exact fun _ => rfl
    | cons c t ih =>
      intro inWord
      have hdotted : c.toLower = 'İ' ↔ c = 'İ' := toLower_eq_iff rfl
      have hsigma : c.toLower = 'Σ' ↔ c = 'Σ' := toLower_eq_iff rfl
      simp only [List.map_cons, lowerFrom, isIgnorable_toLower, isCased_toLower, lowerChar_toLower,
        wordGoesOn_map_toLower, hdotted, hsigma, ih]
  exact hrun false

end IncludeTrace
