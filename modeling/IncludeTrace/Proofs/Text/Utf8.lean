import IncludeTrace.Text.Utf8
import Mathlib.Tactic.Common

/-!
# Decoding undoes encoding

Every text is read back from the bytes that encode it: `Utf8.strict_encode`. The bytes of one character,
in front of any others, are one piece (`Utf8.piecesFrom_encodeChar`). Its first byte says how many more
belong to it and between which bounds the second one lies, and the proof goes by their number.

Nothing else is decoded: bytes that are read without a fault are those that encode what was read
(`Utf8.strict_eq_ok_iff`). While a character is under way, the bounds for its next byte let only such bytes
through as belong to an encoded character (`Utf8.Begins`).
-/

namespace IncludeTrace.Utf8

/-- The code point of a character is no surrogate and not beyond the last one. -/
theorem toNat_valid (c : Char) : c.toNat < 0xD800 ∨ 0xDFFF < c.toNat ∧ c.toNat < 0x110000 := c.valid

theorem toNat_ofNat_of_lt {n : ℕ} (h : n < 256) : (UInt8.ofNat n).toNat = n := by
  rw [UInt8.toNat_ofNat', Nat.mod_eq_of_lt h]

/-! ### One byte -/

variable {p : Pending} {n : ℕ} {a : UInt8}

/-- A byte that can begin a character of several bytes begins it. -/
theorem piecesFrom_first (hn : 0x80 ≤ n ∧ n < 256) (h : Pending.ofStart? (UInt8.ofNat n) = some p)
    (rest : List UInt8) : piecesFrom none (UInt8.ofNat n :: rest) = piecesFrom (some p) rest := by
  have hb : ¬ (UInt8.ofNat n).toNat < 0x80 := by
    rw [toNat_ofNat_of_lt hn.2]
    omega
  simp only [piecesFrom, step, start, if_neg hb, h, List.nil_append]

/-- A byte between the bounds is taken while more are missing. -/
theorem piecesFrom_next (hn : n < 256) (h : p.low ≤ n ∧ n ≤ p.high) (hmissing : 1 < p.missing)
    (rest : List UInt8) : piecesFrom (some p) (UInt8.ofNat n :: rest) =
      piecesFrom (some ⟨p.taken ++ [UInt8.ofNat n], 64 * p.bits + (n - 0x80), p.missing - 1, 0x80,
        0xBF⟩) rest := by
  simp only [piecesFrom, step, toNat_ofNat_of_lt hn, if_pos h, if_neg (Nat.not_le.mpr hmissing),
    List.nil_append]

/-- The last byte that is missing completes the character. -/
theorem piecesFrom_last (hn : n < 256) (h : p.low ≤ n ∧ n ≤ p.high) (hmissing : p.missing ≤ 1)
    (rest : List UInt8) : piecesFrom (some p) (UInt8.ofNat n :: rest) =
      .char (Char.ofNat (64 * p.bits + (n - 0x80))) (p.taken.length + 1) ::
        piecesFrom none rest := by
  simp only [piecesFrom, step, toNat_ofNat_of_lt hn, if_pos h, if_pos hmissing,
    List.singleton_append]

/-! ### First bytes -/

/-- The first of two bytes. -/
theorem ofStart?_two (h : 0xC2 ≤ n ∧ n ≤ 0xDF) :
    Pending.ofStart? (UInt8.ofNat n) = some ⟨[UInt8.ofNat n], n - 0xC0, 1, 0x80, 0xBF⟩ := by
  rw [Pending.ofStart?, toNat_ofNat_of_lt (by omega), if_pos h]

/-- The first of three bytes; `m` is the second one. -/
theorem ofStart?_three {m : ℕ} (h : 0xE0 ≤ n ∧ n ≤ 0xEF) (hm : 0x80 ≤ m ∧ m ≤ 0xBF)
    (hlong : n = 0xE0 → 0xA0 ≤ m) (hsurrogate : n = 0xED → m ≤ 0x9F) :
    ∃ p, Pending.ofStart? (UInt8.ofNat n) = some p ∧ p.bits = n - 0xE0 ∧ p.missing = 2 ∧
      p.low ≤ m ∧ m ≤ p.high := by
  rw [Pending.ofStart?, toNat_ofNat_of_lt (by omega)]
  split_ifs
  all_goals first
    | omega
    | refine ⟨_, rfl, ?_, rfl, ?_, ?_⟩ <;> dsimp only <;> omega

/-- The first of four bytes; `m` is the second one. -/
theorem ofStart?_four {m : ℕ} (h : 0xF0 ≤ n ∧ n ≤ 0xF4) (hm : 0x80 ≤ m ∧ m ≤ 0xBF)
    (hlong : n = 0xF0 → 0x90 ≤ m) (hbeyond : n = 0xF4 → m ≤ 0x8F) :
    ∃ p, Pending.ofStart? (UInt8.ofNat n) = some p ∧ p.bits = n - 0xF0 ∧ p.missing = 3 ∧
      p.low ≤ m ∧ m ≤ p.high := by
  rw [Pending.ofStart?, toNat_ofNat_of_lt (by omega)]
  split_ifs
  all_goals first
    | omega
    | refine ⟨_, rfl, ?_, rfl, ?_, ?_⟩ <;> dsimp only <;> omega

/-! ### Characters and texts -/

/-- **The bytes of a character are one piece**, whatever follows. -/
theorem piecesFrom_encodeChar (c : Char) (rest : List UInt8) :
    ∃ width, piecesFrom none (String.utf8EncodeChar c ++ rest) =
      .char c width :: piecesFrom none rest := by
  have hvalid := toNat_valid c
  have hback : ∀ v, v = c.toNat → Char.ofNat v = c := fun v h => h ▸ Char.ofNat_toNat c
  have hencode : String.utf8EncodeChar c = _ := String.utf8EncodeChar.eq_1 c
  rw [show c.val.toNat = c.toNat from rfl] at hencode
  generalize c.toNat = v at hvalid hback hencode
  rw [hencode]
  -- by the number of bytes, from one to four
  by_cases h₁ : v ≤ 127
  · have hv : (UInt8.ofNat v).toNat = v := toNat_ofNat_of_lt (by omega)
    refine ⟨1, ?_⟩
    rw [if_pos h₁, List.singleton_append]
    simp only [piecesFrom, step, start, hv, if_pos (Nat.lt_succ_of_le h₁), List.singleton_append,
      hback v rfl]
  rw [if_neg h₁]
  by_cases h₂ : v ≤ 2047
  · rw [if_pos h₂]
    rw [List.cons_append, List.singleton_append,
      piecesFrom_first (by omega) (ofStart?_two (by omega)),
      piecesFrom_last (by omega) (by dsimp only; omega) (Nat.le_refl 1),
      hback _ (by dsimp only; omega)]
    exact ⟨_, rfl⟩
  rw [if_neg h₂]
  by_cases h₃ : v ≤ 65535
  · rw [if_pos h₃]
    obtain ⟨p, hp, hbits, hmissing, hlow, hhigh⟩ :=
      ofStart?_three (n := v / 4096 % 16 + 224) (m := v / 64 % 64 + 128) (by omega) (by omega)
        (by omega) (by omega)
    rw [List.cons_append, List.cons_append, List.singleton_append, piecesFrom_first (by omega) hp,
      piecesFrom_next (by omega) ⟨hlow, hhigh⟩ (by omega),
      piecesFrom_last (by omega) (by dsimp only; omega) (by dsimp only; omega),
      hback _ (by dsimp only; omega)]
    exact ⟨_, rfl⟩
  · rw [if_neg h₃]
    obtain ⟨p, hp, hbits, hmissing, hlow, hhigh⟩ :=
      ofStart?_four (n := v / 262144 % 8 + 240) (m := v / 4096 % 64 + 128) (by omega) (by omega)
        (by omega) (by omega)
    rw [List.cons_append, List.cons_append, List.cons_append, List.singleton_append,
      piecesFrom_first (by omega) hp, piecesFrom_next (by omega) ⟨hlow, hhigh⟩ (by omega),
      piecesFrom_next (by omega) (by dsimp only; omega) (by dsimp only; omega),
      piecesFrom_last (by omega) (by dsimp only; omega) (by dsimp only; omega),
      hback _ (by dsimp only; omega)]
    exact ⟨_, rfl⟩

/-- **Decoding undoes encoding.** -/
theorem strict_encode (t : Text) : strict (encode t) = .ok t := by
  have h : ∀ position, strictPieces position (piecesFrom none (encode t)) = .ok t := by
    induction t with
    | nil => exact fun _ => rfl
    | cons c t ih =>
      intro position
      obtain ⟨width, hc⟩ := piecesFrom_encodeChar c (encode t)
      rw [encode, List.flatMap_cons, ← encode, hc, strictPieces, ih]
      rfl
  exact h 0

theorem encode_injective : Function.Injective encode := by
  intro t t' h
  have hread := strict_encode t
  rw [h, strict_encode] at hread
  exact (Except.ok.inj hread).symm

/-! ### Decoded bytes -/

theorem toNat_charOfNat {v : ℕ} (h : v.isValidChar) : (Char.ofNat v).toNat = v := by
  rw [Char.ofNat, dif_pos h]
  rfl

/-- The bytes of a character, from its code point. -/
theorem encodeChar_ofNat {v : ℕ} (h : v.isValidChar) {bytes : List UInt8}
    (hbytes : bytes.map UInt8.toNat =
      if v ≤ 127 then [v]
      else if v ≤ 2047 then [v / 64 % 32 + 192, v % 64 + 128]
      else if v ≤ 65535 then [v / 4096 % 16 + 224, v / 64 % 64 + 128, v % 64 + 128]
      else [v / 262144 % 8 + 240, v / 4096 % 64 + 128, v / 64 % 64 + 128, v % 64 + 128]) :
    String.utf8EncodeChar (Char.ofNat v) = bytes := by
  have hback : (bytes.map UInt8.toNat).map UInt8.ofNat = bytes := by
    rw [List.map_map]
    exact List.map_id'' (fun b => UInt8.ofNat_toNat) _
  rw [String.utf8EncodeChar.eq_1, show ∀ c : Char, c.val.toNat = c.toNat from fun _ => rfl,
    toNat_charOfNat h, ← hback, hbytes]
  split_ifs <;> rfl

/-- A character under way **begins well** if the bytes taken so far, with any bytes that are still
accepted, encode the character that comes of them. -/
inductive Begins : Pending → Prop
  | last {p : Pending} (hmissing : p.missing ≤ 1)
      (h : ∀ b : UInt8, p.low ≤ b.toNat ∧ b.toNat ≤ p.high →
        String.utf8EncodeChar (Char.ofNat (64 * p.bits + (b.toNat - 0x80))) = p.taken ++ [b]) : Begins p
  | more {p : Pending} (hmissing : 1 < p.missing)
      (h : ∀ b : UInt8, p.low ≤ b.toNat ∧ b.toNat ≤ p.high →
        Begins ⟨p.taken ++ [b], 64 * p.bits + (b.toNat - 0x80), p.missing - 1, 0x80, 0xBF⟩) : Begins p

/-- The first of two bytes begins well. -/
theorem begins_two (ha : 0xC2 ≤ a.toNat ∧ a.toNat ≤ 0xDF) :
    Begins ⟨[a], a.toNat - 0xC0, 1, 0x80, 0xBF⟩ := by
  refine .last (Nat.le_refl 1) fun b hb => encodeChar_ofNat (.inl ?_) ?_
  · dsimp only at hb ⊢
    omega
  · dsimp only at hb ⊢
    rw [if_neg (by omega), if_pos (by omega)]
    simp only [List.cons_append, List.nil_append, List.map_cons, List.map_nil, List.cons.injEq, and_true]
    omega

/-- The first of three bytes begins well, if its bounds rule out long forms and surrogates. -/
theorem begins_three {bits low high : ℕ} (ha : 0xE0 ≤ a.toNat ∧ a.toNat ≤ 0xEF)
    (hbits : bits = a.toNat - 0xE0) (hbounds : 0x80 ≤ low ∧ high ≤ 0xBF)
    (hlong : a.toNat = 0xE0 → 0xA0 ≤ low) (hsurrogate : a.toNat = 0xED → high ≤ 0x9F) :
    Begins ⟨[a], bits, 2, low, high⟩ := by
  refine .more (Nat.lt_succ_self 1) fun b hb => .last (Nat.le_refl 1) fun c hc => encodeChar_ofNat ?_ ?_
  · dsimp only [Nat.isValidChar] at hb hc ⊢
    omega
  · dsimp only at hb hc ⊢
    rw [if_neg (by omega), if_neg (by omega), if_pos (by omega)]
    simp only [List.cons_append, List.nil_append, List.map_cons, List.map_nil, List.cons.injEq, and_true]
    omega

/-- The first of four bytes begins well, if its bounds rule out long forms and what is beyond the last
code point. -/
theorem begins_four {bits low high : ℕ} (ha : 0xF0 ≤ a.toNat ∧ a.toNat ≤ 0xF4)
    (hbits : bits = a.toNat - 0xF0) (hbounds : 0x80 ≤ low ∧ high ≤ 0xBF)
    (hlong : a.toNat = 0xF0 → 0x90 ≤ low) (hbeyond : a.toNat = 0xF4 → high ≤ 0x8F) :
    Begins ⟨[a], bits, 3, low, high⟩ := by
  refine .more (show 1 < 3 by decide) fun b hb => .more (show 1 < 2 by decide) fun c hc =>
    .last (Nat.le_refl 1) fun d hd => encodeChar_ofNat ?_ ?_
  · dsimp only [Nat.isValidChar] at hb hc hd ⊢
    omega
  · dsimp only at hb hc hd ⊢
    rw [if_neg (by omega), if_neg (by omega), if_neg (by omega)]
    simp only [List.cons_append, List.nil_append, List.map_cons, List.map_nil, List.cons.injEq, and_true]
    omega

/-- Every byte that can begin a character begins it well. -/
theorem begins_of_ofStart? (h : Pending.ofStart? a = some p) : p.taken = [a] ∧ Begins p := by
  rw [Pending.ofStart?] at h
  split_ifs at h
  all_goals
    obtain rfl := Option.some.inj h
    refine ⟨rfl, ?_⟩
  · exact begins_two (by omega)
  · exact begins_three (by omega) (by omega) (by omega) (by omega) (by omega)
  · exact begins_three (by omega) (by omega) (by omega) (by omega) (by omega)
  · exact begins_three (by omega) (by omega) (by omega) (by omega) (by omega)
  · exact begins_four (by omega) (by omega) (by omega) (by omega) (by omega)
  · exact begins_four (by omega) (by omega) (by omega) (by omega) (by omega)
  · exact begins_four (by omega) (by omega) (by omega) (by omega) (by omega)

/-- A character in front of encoded bytes. -/
theorem append_eq_encode {c : Char} {width position : ℕ} {front bytes : List UInt8} {t : Text}
    (hbytes : ∀ position t, strictPieces position (piecesFrom none bytes) = .ok t → bytes = encode t)
    (hc : String.utf8EncodeChar c = front)
    (h : strictPieces position (.char c width :: piecesFrom none bytes) = .ok t) :
    front ++ bytes = encode t := by
  rw [strictPieces] at h
  cases hrest : strictPieces (position + width) (piecesFrom none bytes) with
  | error f =>
    rw [hrest] at h
    cases h
  | ok t' =>
    rw [hrest] at h
    obtain rfl := Except.ok.inj h
    rw [encode, List.flatMap_cons, ← encode, ← hbytes _ _ hrest, hc]

/-- What is read without faults from a state is the rest of an encoded text. -/
theorem eq_encode_of_strictPieces (bytes : List UInt8) :
    (∀ position t, strictPieces position (piecesFrom none bytes) = .ok t → bytes = encode t) ∧
    ∀ p position t, Begins p → strictPieces position (piecesFrom (some p) bytes) = .ok t →
      p.taken ++ bytes = encode t := by
  induction bytes with
  | nil =>
    refine ⟨fun position t h => ?_, fun p position t hp h => ?_⟩
    · obtain rfl := Except.ok.inj h
      rfl
    · cases h
  | cons b bytes ih =>
    obtain ⟨ihnone, ihsome⟩ := ih
    refine ⟨fun position t h => ?_, fun p position t hp h => ?_⟩
    · by_cases hb : b.toNat < 0x80
      · simp only [piecesFrom, step, start, if_pos hb, List.singleton_append] at h
        have hone : String.utf8EncodeChar (Char.ofNat b.toNat) = [b] := by
          refine encodeChar_ofNat (.inl (by omega)) ?_
          rw [if_pos (by omega), List.map_singleton]
        exact append_eq_encode ihnone hone h
      · cases hp : Pending.ofStart? b with
        | none =>
          simp only [piecesFrom, step, start, if_neg hb, hp] at h
          cases h
        | some p =>
          obtain ⟨htaken, hbegins⟩ := begins_of_ofStart? hp
          simp only [piecesFrom, step, start, if_neg hb, hp, List.nil_append] at h
          have hrest := ihsome p position t hbegins h
          rwa [htaken] at hrest
    · by_cases hb : p.low ≤ b.toNat ∧ b.toNat ≤ p.high
      · cases hp with
        | last hmissing hlast =>
          simp only [piecesFrom, step, if_pos hb, if_pos hmissing, List.singleton_append] at h
          have hrest := append_eq_encode ihnone (hlast b hb) h
          rwa [List.append_assoc] at hrest
        | more hmissing hmore =>
          simp only [piecesFrom, step, if_pos hb, if_neg (Nat.not_le.mpr hmissing), List.nil_append] at h
          have hrest := ihsome _ position t (hmore b hb) h
          rwa [List.append_assoc] at hrest
      · simp only [piecesFrom, step, if_neg hb] at h
        cases h

/-- **Decoding accepts what encoding gives, and nothing else.** -/
theorem strict_eq_ok_iff {bytes : List UInt8} {t : Text} : strict bytes = .ok t ↔ bytes = encode t :=
  ⟨(eq_encode_of_strictPieces bytes).1 0 t, fun h => h ▸ strict_encode t⟩

end IncludeTrace.Utf8
