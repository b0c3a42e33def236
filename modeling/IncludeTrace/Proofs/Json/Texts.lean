import IncludeTrace.Json.Reader
import IncludeTrace.Json.Writer
import Mathlib.Tactic.Common

/-!
# Reading texts back

What stands between the quotes of a written text is read back as the same text:
`Json.readLetters_text`. One character is the case that matters (`Json.readLetters_escapeChar`). It
stands for itself, or behind a backslash as a letter or as one unit of four hexadecimal digits, or as
two such units if one does not suffice; these two the reader puts together again
(`Json.escaped_pair`).
-/

namespace IncludeTrace

/-! ### Hexadecimal numerals -/

namespace Text

/-- One more place takes the last digit. -/
theorem hex_succ (width n : ℕ) :
    hex (width + 2) n = hex (width + 1) (n / 16) ++ [Nat.digitChar (n % 16)] := by
  by_cases hn : n < 16
  · have hzero : n / 16 = 0 := by omega
    rw [hzero, Nat.mod_eq_of_lt hn, hex, hex, Nat.toDigits_of_lt_base hn, Nat.toDigits_zero]
    simp only [List.length_singleton, Nat.add_sub_cancel]
    rw [show width + 2 - 1 = width + 1 from rfl, List.replicate_succ']
  · have hdigits : Nat.toDigits 16 n = Nat.toDigits 16 (n / 16) ++ [Nat.digitChar (n % 16)] :=
      Nat.toDigits_of_base_le (Nat.lt_of_sub_eq_succ rfl) (Nat.le_of_not_lt hn)
    rw [hex, hex, hdigits, List.length_append, List.length_singleton, ← List.append_assoc]
    exact congrArg (fun k => List.replicate k '0' ++ _ ++ _) (Nat.add_sub_add_right (width + 1) 1 _)

theorem hex_one {n : ℕ} (h : n < 16) : hex 1 n = [Nat.digitChar n] := by
  rw [hex, Nat.toDigits_of_lt_base h]
  rfl

/-- The four hexadecimal digits of a unit. -/
theorem hex_four {n : ℕ} (h : n < 0x10000) : hex 4 n = [Nat.digitChar (n / 16 / 16 / 16),
    Nat.digitChar (n / 16 / 16 % 16), Nat.digitChar (n / 16 % 16), Nat.digitChar (n % 16)] := by
  rw [hex_succ, hex_succ, hex_succ, hex_one (by omega)]
  rfl

end Text

namespace Json

theorem hexValue?_digitChar : ∀ d < 16, hexValue? (Nat.digitChar d) = some d := by decide

/-- **Four hexadecimal digits are read as the unit that they write.** -/
theorem unit?_hex {n : ℕ} (h : n < 0x10000) :
    ∃ a b c d, Text.hex 4 n = [a, b, c, d] ∧ unit? a b c d = some n := by
  refine ⟨_, _, _, _, Text.hex_four h, ?_⟩
  rw [unit?, hexValue?_digitChar _ (by omega), hexValue?_digitChar _ (by omega),
    hexValue?_digitChar _ (by omega), hexValue?_digitChar _ (by omega)]
  simp only [Option.bind_eq_bind, Option.bind_some, Option.pure_def, Option.some.injEq]
  omega

/-! ### What follows a backslash -/

variable {opening rest : Text}

/-- A unit that is no first half. -/
theorem escaped_unit {n : ℕ} (opening : Text) (h : n < 0x10000)
    (hfirst : ¬ (0xD800 ≤ n ∧ n ≤ 0xDBFF)) (hrest : rest ≠ []) :
    escaped opening ('u' :: Text.hex 4 n ++ rest) =
      .ok (.ofUnit n, ('u' :: Text.hex 4 n).length) := by
  obtain ⟨a, b, c, d, hhex, hunit⟩ := unit?_hex h
  obtain ⟨next, rest, rfl⟩ := List.exists_cons_of_ne_nil hrest
  simp only [hhex, List.cons_append, List.nil_append, escaped, hunit, if_neg hfirst]
  rfl

/-- Two units that are the halves of a character. -/
theorem escaped_pair {n : ℕ} (opening : Text) (h : n < 0x100000) (hrest : rest ≠ []) :
    escaped opening ('u' :: Text.hex 4 (0xD800 + n / 0x400) ++
        '\\' :: 'u' :: Text.hex 4 (0xDC00 + n % 0x400) ++ rest) =
      .ok (.char (Char.ofNat (0x10000 + n)), ('u' :: Text.hex 4 (0xD800 + n / 0x400) ++
        '\\' :: 'u' :: Text.hex 4 (0xDC00 + n % 0x400)).length) := by
  obtain ⟨a, b, c, d, hhex, hunit⟩ := unit?_hex (show 0xD800 + n / 0x400 < 0x10000 by omega)
  obtain ⟨a', b', c', d', hhex', hunit'⟩ := unit?_hex (show 0xDC00 + n % 0x400 < 0x10000 by omega)
  obtain ⟨next, rest, rfl⟩ := List.exists_cons_of_ne_nil hrest
  have hlow : lowUnit? ('\\' :: 'u' :: a' :: b' :: c' :: d' :: next :: rest) =
      some (0xDC00 + n % 0x400) := by
    rw [lowUnit?, hunit']
    exact if_pos (by omega)
  have hvalue : 0x10000 + (0xD800 + n / 0x400 - 0xD800) * 0x400 + (0xDC00 + n % 0x400 - 0xDC00) =
      0x10000 + n := by omega
  have hfirst : 0xD800 ≤ 0xD800 + n / 0x400 ∧ 0xD800 + n / 0x400 ≤ 0xDBFF := by omega
  simp only [hhex, hhex', List.cons_append, List.nil_append, escaped, hunit, if_pos hfirst, hlow,
    hvalue]
  rfl

/-! ### Characters and texts -/

theorem readLetters_backslash {body : Text} {l : Letter}
    (h : escaped opening (body ++ rest) = .ok (l, body.length)) :
    readLetters opening ('\\' :: body ++ rest) =
      (readLetters opening rest).map fun r => (l :: r.1, r.2) := by
  rw [List.cons_append, readLetters, if_neg (by decide), if_pos rfl, h]
  simp only [List.drop_left]

/-- **A written character is read as itself**, in front of whatever else. -/
theorem readLetters_escapeChar (c : Char) (hrest : rest ≠ []) :
    readLetters opening (escapeChar c ++ rest) =
      (readLetters opening rest).map fun r => (.char c :: r.1, r.2) := by
  have hvalid : c.toNat < 0xD800 ∨ 0xDFFF < c.toNat ∧ c.toNat < 0x110000 := c.valid
  rw [escapeChar]
  split_ifs with hquote hslash hlf hcr htab hff hbs hplain hunit
  · subst hquote
    exact readLetters_backslash rfl
  · subst hslash
    exact readLetters_backslash rfl
  · subst hlf
    exact readLetters_backslash rfl
  · subst hcr
    exact readLetters_backslash rfl
  · subst htab
    exact readLetters_backslash rfl
  · subst hff
    exact readLetters_backslash rfl
  · subst hbs
    exact readLetters_backslash rfl
  · rw [List.singleton_append, readLetters, if_neg hquote, if_neg hslash, if_neg (by omega)]
  · -- one unit, which is the code point itself
    have hletter : Letter.ofUnit c.toNat = .char c := by
      rw [Letter.ofUnit, dif_neg (by omega), Char.ofNat_toNat]
    have hescaped := escaped_unit opening hunit (by omega) hrest
    rw [hletter] at hescaped
    exact readLetters_backslash hescaped
  · -- two units, which are its halves
    have hescaped := escaped_pair opening (show c.toNat - 0x10000 < 0x100000 by omega) hrest
    rw [show 0x10000 + (c.toNat - 0x10000) = c.toNat by omega, Char.ofNat_toNat] at hescaped
    exact readLetters_backslash hescaped

/-- **A written text is read back**, up to the quote that closes it. -/
theorem readLetters_text (opening t rest : Text) : readLetters opening
    ((t : Letters).flatMap escapeLetter ++ '"' :: rest) = .ok (t, rest) := by
  induction t with
  | nil =>
    rw [Letters.ofText, List.map_nil, List.flatMap_nil, List.nil_append, readLetters, if_pos rfl]
  | cons c t ih =>
    have hwritten : (Letters.ofText (c :: t)).flatMap escapeLetter ++ '"' :: rest =
        escapeChar c ++ ((t : Letters).flatMap escapeLetter ++ '"' :: rest) := by
      rw [Letters.ofText, List.map_cons, List.flatMap_cons, List.append_assoc]
      rfl
    rw [hwritten, readLetters_escapeChar c (by simp), ih]
    rfl

end Json

end IncludeTrace
