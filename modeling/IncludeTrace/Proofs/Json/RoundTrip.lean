import IncludeTrace.Proofs.Json.Texts
import IncludeTrace.Proofs.Table

/-!
# Reading documents back

A document that was written from a value over several lines is read back as that value
(`Json.readUnder_renderIndented`). This holds for the values that are `Json.Readable` within the
limits of the reader: doubles are left out, since a document does not say from which number its
digits were made, and so are numerals that are too long, nesting that is too deep, and objects that
name a member twice.

The proof goes along the structure of the value. Its statement (`Json.ReadsBack`) has to speak of
what follows the value and of the fuel; any text may follow that does not prolong a number
(`Json.Stops`), and twice the length of what is written is fuel enough.
-/

namespace IncludeTrace.Json

/-! ### Numbers -/

/-- A text **stops** a number if nothing is left, or a comma or a line feed comes first. -/
def Stops (rest : Text) : Prop := ∀ c ∈ rest.head?, c = ',' ∨ c = '\n'

variable {most : Option ℕ} {rest : Text}

theorem not_isDigit_of_stops (h : Stops rest) : ∀ c ∈ rest.head?, c.isDigit = false := by
  intro c hc
  rcases h c hc with rfl | rfl <;> rfl

theorem spanDigits_append {ds : Text} (hds : ∀ c ∈ ds, c.isDigit = true) (h : Stops rest) :
    spanDigits (ds ++ rest) = (ds, rest) := by
  have htake : rest.takeWhile Char.isDigit = [] := by
    cases rest with
    | nil => rfl
    | cons c rest => simp [not_isDigit_of_stops h c rfl]
  have hdrop : rest.dropWhile Char.isDigit = rest := by
    cases rest with
    | nil => rfl
    | cons c rest => simp [not_isDigit_of_stops h c rfl]
  rw [spanDigits, List.takeWhile_append_of_pos hds, List.dropWhile_append_of_pos hds, htake, hdrop,
    List.append_nil]

theorem isDigit_ofNat {n : ℕ} : ∀ c ∈ Text.ofNat n, c.isDigit = true := fun _ hc =>
  Nat.isDigit_of_mem_toDigits (by decide) (by decide) hc

/-- Only the numeral of zero begins with it. -/
theorem exists_ofNat {n : ℕ} (h : 0 < n) : ∃ c ds, Text.ofNat n = c :: ds ∧ c ≠ '0' := by
  -- the first digit is that of a tenth of the number, unless it is the only one
  induction n using Nat.strongRecOn with
  | _ n ih =>
    rw [Text.ofNat]
    by_cases hn : n < 10
    · refine ⟨Nat.digitChar n, [], Nat.toDigits_of_lt_base hn, ?_⟩
      rw [Ne, Nat.digitChar_eq_zero]
      exact Nat.ne_of_gt h
    · obtain ⟨c, ds, hc, hne⟩ := ih (n / 10) (by omega) (by omega)
      rw [Text.ofNat] at hc
      refine ⟨c, ds ++ [Nat.digitChar (n % 10)], ?_, hne⟩
      rw [Nat.toDigits_of_base_le (by decide) (Nat.le_of_not_lt hn), hc, List.cons_append]

theorem spanWhole_ofNat (n : ℕ) (h : Stops rest) :
    spanWhole (Text.ofNat n ++ rest) = some (Text.ofNat n, rest) := by
  rcases Nat.eq_zero_or_pos n with rfl | hn
  · rfl
  · obtain ⟨c, ds, hc, hne⟩ := exists_ofNat hn
    have hdigits : ∀ d ∈ c :: ds, d.isDigit = true := hc ▸ isDigit_ofNat
    rw [hc, List.cons_append, spanWhole, if_pos (hdigits c List.mem_cons_self), ← List.cons_append,
      spanDigits_append hdigits h]
    exact hne

theorem ofDigits_ofNat (n : ℕ) : Numeral.ofDigits (Text.ofNat n) = n := by
  rw [Numeral.ofDigits, Numeral.value, List.foldl_map]
  exact Nat.ofDigitChars_ten_toDigits

/-- **A written whole number is read back** if the limit lets it. -/
theorem readNumber_ofNat (start : Text) (negative : Bool) {n : ℕ}
    (hmost : refuses most (Text.ofNat n) = false) (h : Stops rest) :
    readNumber most start negative (Text.ofNat n ++ rest) =
      .ok (int (if negative then -n else n), rest) := by
  have hfraction : spanFraction rest = ([], rest) := by
    cases rest with
    | nil => rfl
    | cons c rest => rcases h c rfl with rfl | rfl <;> rfl
  have hexponent : spanExponent rest = none := by
    cases rest with
    | nil => rfl
    | cons c rest => rcases h c rfl with rfl | rfl <;> rfl
  simp only [readNumber, spanWhole_ofNat n h, hfraction, hexponent, hmost, ofDigits_ofNat,
    Bool.false_eq_true, if_false]

/-! ### Values -/

/-- A value that a reader with a limit on digits **can read back** where so many levels may be
opened: it holds no double and no half of a character, its numbers are short enough, and its objects
name no member twice. -/
inductive Readable (most : Option ℕ) : ℕ → Json → Prop
  | null {room : ℕ} : Readable most room null
  | bool {room : ℕ} (b : Bool) : Readable most room (bool b)
  | whole {room : ℕ} {n : Int} (h : refuses most (Text.ofNat n.natAbs) = false) :
      Readable most room (int n)
  | text {room : ℕ} (t : Text) : Readable most room (text t)
  | list {room : ℕ} {vs : List Json} (h : ∀ v ∈ vs, Readable most room v) :
      Readable most (room + 1) (list vs)
  | object {room : ℕ} {ms : List (Letters × Json)} (hn : (ms.map Prod.fst).Nodup)
      (hnames : ∀ m ∈ ms, ∃ t : Text, m.1 = t) (h : ∀ m ∈ ms, Readable most room m.2) :
      Readable most (room + 1) (object ms)

/-- What is written of a value is **read back** in front of whatever stops a number. -/
def ReadsBack (most : Option ℕ) (room level : ℕ) (v : Json) : Prop :=
  ∀ fuel rest, Stops rest → 2 * (v.renderAt level).length ≤ fuel →
    readValue most fuel room (v.renderAt level ++ rest) = .ok (v, rest)

/-- The characters that are skipped, end a list or an object, or mark the order of bytes. -/
def notBeginning : List Char := [' ', '\t', '\n', '\r', ']', '\x7d', '\uFEFF']

theorem skipBlanks_of_begins {c : Char} (h : c ∉ notBeginning) (t : Text) :
    skipBlanks (c :: t) = c :: t := by
  simp only [notBeginning, List.mem_cons, not_or] at h
  obtain ⟨h₁, h₂, h₃, h₄, -⟩ := h
  simp [skipBlanks, h₁, h₂, h₃, h₄]

theorem skipBlanks_newLine (level : ℕ) (t : Text) :
    skipBlanks (newLine level ++ t) = skipBlanks t := by
  have hblank : ∀ c ∈ newLine level, (c = ' ' || c = '\t' || c = '\n' || c = '\r') = true := by
    intro c hc
    rcases List.mem_cons.mp hc with rfl | hc
    · rfl
    · rw [(List.mem_replicate.mp hc).2]
      rfl
  exact List.dropWhile_append_of_pos hblank

theorem begins_of_isDigit {c : Char} (h : c.isDigit = true) : c ∉ notBeginning := by
  have hall : notBeginning.all (fun d => !d.isDigit) = true := rfl
  intro hc
  simpa [h] using List.all_eq_true.mp hall c hc

/-- A value begins with a character that is not skipped. -/
theorem exists_renderAt {room : ℕ} {v : Json} (h : Readable most room v) (level : ℕ) :
    ∃ c t, v.renderAt level = c :: t ∧ c ∉ notBeginning := by
  cases h with
  | null => exact ⟨_, _, rfl, by decide⟩
  | bool b => cases b <;> exact ⟨_, _, rfl, by decide⟩
  | @whole _ n h =>
    obtain ⟨c, t, hct⟩ := List.exists_cons_of_ne_nil (@Nat.toDigits_ne_nil n.natAbs 10)
    cases n with
    | ofNat n => exact ⟨c, t, hct, begins_of_isDigit (isDigit_ofNat c (hct ▸ List.mem_cons_self))⟩
    | negSucc n => exact ⟨_, _, rfl, by decide⟩
  | text t => exact ⟨_, _, rfl, by decide⟩
  | @list _ vs h => cases vs <;> exact ⟨_, _, rfl, by decide⟩
  | @object _ ms hn hnames h => rcases ms with _ | ⟨⟨name, v⟩, ms⟩ <;> exact ⟨_, _, rfl, by decide⟩

/-- It is enough to look at readers with fuel, for nothing is written as nothing. -/
theorem readsBack_of_succ {room level : ℕ} {v : Json} (hv : Readable most room v)
    (h : ∀ fuel rest, Stops rest → 2 * (v.renderAt level).length ≤ fuel + 1 →
      readValue most (fuel + 1) room (v.renderAt level ++ rest) = .ok (v, rest)) :
    ReadsBack most room level v := by
  intro fuel rest hrest hfuel
  obtain ⟨c, t, hct, -⟩ := exists_renderAt hv level
  have hlength : (v.renderAt level).length = t.length + 1 := by rw [hct, List.length_cons]
  obtain ⟨fuel, rfl⟩ : ∃ n, fuel = n + 1 := ⟨fuel - 1, by omega⟩
  exact h fuel rest hrest hfuel

/-- A text with a digit among its first two characters begins with no word. -/
theorem readWord?_of_isDigit {t : Text} {d : Char} (hd : d ∈ t.take 2) (h : d.isDigit = true) :
    readWord? t = none := by
  have hwords : ∀ w ∈ words, 2 ≤ w.1.length ∧ (w.1.take 2).all (fun d => !d.isDigit) = true := by
    decide
  have hnone : words.find? (fun w => w.1.isPrefixOf t) = none := by
    refine List.find?_eq_none.mpr fun w hw hprefix => ?_
    obtain ⟨t, rfl⟩ := List.isPrefixOf_iff_prefix.mp hprefix
    obtain ⟨hlength, hfirst⟩ := hwords w hw
    rw [List.take_append_of_le_length hlength] at hd
    simpa [h] using List.all_eq_true.mp hfirst d hd
  rw [readWord?, hnone]
  rfl

theorem ne_of_isDigit {c d : Char} (hc : c.isDigit = true) (hd : d.isDigit = false) : c ≠ d := by
  rintro rfl
  rw [hc] at hd
  cases hd

/-- What begins with neither a quote, a bracket, a brace nor a minus is a word or a number. -/
theorem readValue_of_plain {fuel room : ℕ} {c : Char}
    (hc : c ≠ '"' ∧ c ≠ '[' ∧ c ≠ '\x7b' ∧ c ≠ '-') (t : Text) :
    readValue most (fuel + 1) room (c :: t) =
      match readWord? (c :: t) with
      | some found => .ok found
      | none => readNumber most (c :: t) false (c :: t) := by
  obtain ⟨hquote, hbracket, hbrace, hminus⟩ := hc
  rw [readValue.eq_def]
  dsimp only
  split
  · next e => exact absurd (List.cons.inj e).1 hquote
  · next e => exact absurd (List.cons.inj e).1 hbracket
  · next e => exact absurd (List.cons.inj e).1 hbracket
  · next e => exact absurd (List.cons.inj e).1 hbrace
  · next e => exact absurd (List.cons.inj e).1 hbrace
  · cases readWord? (c :: t) with
    | some found => rfl
    | none =>
      dsimp only
      split
      · next e => exact absurd (List.cons.inj e).1 hminus
      · rfl

/-- A digit begins a number. -/
theorem readValue_of_isDigit {fuel room : ℕ} {c : Char} (hc : c.isDigit = true) (t : Text) :
    readValue most (fuel + 1) room (c :: t) = readNumber most (c :: t) false (c :: t) := by
  have hne : ∀ d, d.isDigit = false → c ≠ d := fun _ => ne_of_isDigit hc
  rw [readValue_of_plain ⟨hne _ rfl, hne _ rfl, hne _ rfl, hne _ rfl⟩,
    readWord?_of_isDigit (by simp) hc]

/-- So does a minus with a digit behind it. -/
theorem readValue_minus {fuel room : ℕ} {c : Char} (hc : c.isDigit = true) (t : Text) :
    readValue most (fuel + 1) room ('-' :: c :: t) =
      readNumber most ('-' :: c :: t) true (c :: t) := by
  have hword : readWord? ('-' :: c :: t) = none := readWord?_of_isDigit (by simp) hc
  rw [readValue, hword]

theorem readsBack_whole {room level : ℕ} {n : Int}
    (h : refuses most (Text.ofNat n.natAbs) = false) : ReadsBack most room level (int n) := by
  refine readsBack_of_succ (.whole h) fun fuel rest hrest _ => ?_
  obtain ⟨c, ds, hc⟩ := List.exists_cons_of_ne_nil
    (show Text.ofNat n.natAbs ≠ [] from Nat.toDigits_ne_nil)
  have hdigit : c.isDigit = true := isDigit_ofNat c (hc ▸ List.mem_cons_self)
  cases n with
  | ofNat n =>
    have hread := readNumber_ofNat (Text.ofNat n ++ rest) false h hrest
    change Text.ofNat n = c :: ds at hc
    change readValue most (fuel + 1) room (Text.ofNat n ++ rest) = _
    rw [hc, List.cons_append, readValue_of_isDigit hdigit, ← List.cons_append, ← hc]
    exact hread
  | negSucc n =>
    have hread := readNumber_ofNat ('-' :: Text.ofNat (n + 1) ++ rest) true h hrest
    change Text.ofNat (n + 1) = c :: ds at hc
    change readValue most (fuel + 1) room ('-' :: Text.ofNat (n + 1) ++ rest) = _
    rw [hc, List.cons_append, List.cons_append, readValue_minus hdigit, ← List.cons_append,
      ← List.cons_append, ← hc]
    exact hread

theorem readsBack_text {room level : ℕ} (t : Text) : ReadsBack most room level (text t) := by
  refine readsBack_of_succ (.text t) fun fuel rest _ _ => ?_
  have hwritten : (text t).renderAt level ++ rest =
      '"' :: ((t : Letters).flatMap escapeLetter ++ '"' :: rest) := by
    simp [text, renderAt, atomText, quote]
  rw [hwritten, readValue, readLetters_text]
  rfl

/-- A word is read back. -/
theorem readsBack_word {room level : ℕ} {v : Json} (hv : Readable most room v) {c : Char} {w : Text}
    (hw : v.renderAt level = c :: w) (hc : c ≠ '"' ∧ c ≠ '[' ∧ c ≠ '\x7b' ∧ c ≠ '-')
    (hword : ∀ rest, readWord? (c :: w ++ rest) = some (v, rest)) :
    ReadsBack most room level v := by
  refine readsBack_of_succ hv fun fuel rest _ _ => ?_
  have hread := hword rest
  rw [List.cons_append] at hread
  rw [hw, List.cons_append, readValue_of_plain hc, hread]

theorem readsBack_null {room level : ℕ} : ReadsBack most room level null :=
  readsBack_word .null rfl (by decide) fun _ => rfl

theorem readsBack_bool {room level : ℕ} (b : Bool) : ReadsBack most room level (bool b) := by
  cases b
  · exact readsBack_word (.bool false) rfl (by decide) fun _ => rfl
  · exact readsBack_word (.bool true) rfl (by decide) fun _ => rfl

/-! ### Lists and objects -/

theorem stops_newLine (level : ℕ) (t : Text) : Stops (newLine level ++ t) := by
  intro c hc
  exact .inr (Option.some.inj hc).symm

theorem stops_comma (t : Text) : Stops (',' :: t) := by
  intro c hc
  exact .inl (Option.some.inj hc).symm

theorem stops_restAt (level : ℕ) (vs : List Json) (t : Text) : Stops (restAt level vs ++ t) := by
  cases vs with
  | nil =>
    rw [restAt, List.append_assoc]
    exact stops_newLine level _
  | cons v vs =>
    rw [restAt]
    exact stops_comma _

theorem stops_membersAt (level : ℕ) (ms : List (Letters × Json)) (t : Text) :
    Stops (membersAt level ms ++ t) := by
  rcases ms with _ | ⟨⟨name, v⟩, ms⟩
  · rw [membersAt, List.append_assoc]
    exact stops_newLine level _
  · rw [membersAt]
    exact stops_comma _

/-- Nothing of a value is skipped. -/
theorem skipBlanks_renderAt {room : ℕ} {v : Json} (hv : Readable most room v) (level : ℕ)
    (t : Text) : skipBlanks (v.renderAt level ++ t) = v.renderAt level ++ t := by
  obtain ⟨c, s, hc, hbegins⟩ := exists_renderAt hv level
  rw [hc, List.cons_append, skipBlanks_of_begins hbegins]

/-- **The elements of a list are read back** if each of them is. -/
theorem readElements_renderAt {room level : ℕ} {vs : List Json}
    (hreadable : ∀ v ∈ vs, Readable most room v) (h : ∀ v ∈ vs, ReadsBack most room (level + 1) v)
    {v : Json} (hv : Readable most room v) (hback : ReadsBack most room (level + 1) v) (fuel : ℕ)
    (rest : Text)
    (hfuel : 2 * ((v.renderAt (level + 1)).length + (restAt level vs).length) ≤ fuel) :
    readElements most fuel room (v.renderAt (level + 1) ++ (restAt level vs ++ rest)) =
      .ok (v :: vs, rest) := by
  induction vs generalizing v fuel with
  | nil =>
    rw [restAt, List.length_append, newLine, List.length_cons] at hfuel
    obtain ⟨fuel, rfl⟩ : ∃ n, fuel = n + 1 := ⟨fuel - 1, by omega⟩
    have hend : skipBlanks (restAt level [] ++ rest) = ']' :: rest := by
      rw [restAt, List.append_assoc, skipBlanks_newLine]
      rfl
    rw [readElements, hback fuel _ (stops_restAt level [] rest) (by omega)]
    simp only [bind, Except.bind, hend]
    rfl
  | cons w vs ih =>
    have hw := hreadable w List.mem_cons_self
    rw [restAt, List.length_append, List.length_append, List.length_cons] at hfuel
    obtain ⟨fuel, rfl⟩ : ∃ n, fuel = n + 1 := ⟨fuel - 1, by omega⟩
    have hrest := ih (fun u hu => hreadable u (List.mem_cons_of_mem _ hu))
      (fun u hu => h u (List.mem_cons_of_mem _ hu)) hw (h w List.mem_cons_self) fuel (by omega)
    -- behind the comma, reading goes on with the next element and less fuel
    have hcomma : skipBlanks (restAt level (w :: vs) ++ rest) = ',' :: (newLine (level + 1) ++
        (w.renderAt (level + 1) ++ (restAt level vs ++ rest))) := by
      simp only [restAt, List.cons_append, List.append_assoc]
      rfl
    rw [readElements, hback fuel _ (stops_restAt level _ rest) (by omega)]
    simp only [bind, Except.bind, hcomma, skipBlanks_newLine, skipBlanks_renderAt hw, hrest]
    rfl

/-- The first member of an object is read back, and what follows decides how reading goes on. -/
theorem readMembers_first {room level : ℕ} (name : Text) {v : Json} (hv : Readable most room v)
    (hback : ReadsBack most room (level + 1) v) {fuel : ℕ} (rest : Text) (hrest : Stops rest)
    (hfuel : 2 * (v.renderAt (level + 1)).length ≤ fuel) :
    readMembers most (fuel + 1) room
        (quote name ++ ':' :: ' ' :: (v.renderAt (level + 1) ++ rest)) =
      match skipBlanks rest with
      | '\x7d' :: rest => .ok ([((name : Letters), v)], rest)
      | ',' :: rest => do
        let (vs, t) ← readMembers most fuel room (skipBlanks rest)
        return (((name : Letters), v) :: vs, t)
      | rest => .error ⟨.comma, rest⟩ := by
  have hname : quote name ++ ':' :: ' ' :: (v.renderAt (level + 1) ++ rest) =
      '"' :: ((name : Letters).flatMap escapeLetter ++
        '"' :: ':' :: ' ' :: (v.renderAt (level + 1) ++ rest)) := by simp [quote]
  have hcolon : ∀ t, skipBlanks (':' :: t) = ':' :: t := fun _ => rfl
  have hvalue : skipBlanks (' ' :: (v.renderAt (level + 1) ++ rest)) =
      v.renderAt (level + 1) ++ rest := skipBlanks_renderAt hv (level + 1) rest
  rw [hname, readMembers, readLetters_text]
  simp only [bind, Except.bind, hcolon, hvalue, hback fuel rest hrest hfuel]
  rfl

/-- **The members of an object are read back** if the value of each of them is. -/
theorem readMembers_renderAt {room level : ℕ} {ms : List (Letters × Json)}
    (hnames : ∀ m ∈ ms, ∃ t : Text, m.1 = t) (hreadable : ∀ m ∈ ms, Readable most room m.2)
    (h : ∀ m ∈ ms, ReadsBack most room (level + 1) m.2) (name : Text) {v : Json}
    (hv : Readable most room v) (hback : ReadsBack most room (level + 1) v) (fuel : ℕ) (rest : Text)
    (hfuel : 2 * ((v.renderAt (level + 1)).length + (membersAt level ms).length) ≤ fuel) :
    readMembers most fuel room
        (quote name ++ ':' :: ' ' :: (v.renderAt (level + 1) ++ (membersAt level ms ++ rest))) =
      .ok (((name : Letters), v) :: ms, rest) := by
  induction ms generalizing name v fuel with
  | nil =>
    rw [membersAt, List.length_append, newLine, List.length_cons] at hfuel
    obtain ⟨fuel, rfl⟩ : ∃ n, fuel = n + 1 := ⟨fuel - 1, by omega⟩
    have hend : skipBlanks (membersAt level [] ++ rest) = '\x7d' :: rest := by
      rw [membersAt, List.append_assoc, skipBlanks_newLine]
      rfl
    rw [readMembers_first name hv hback _ (stops_membersAt level [] rest) (by omega), hend]
    rfl
  | cons m ms ih =>
    obtain ⟨_, w⟩ := m
    obtain ⟨name', rfl⟩ := hnames _ List.mem_cons_self
    have hw : Readable most room w := hreadable _ List.mem_cons_self
    have hback' : ReadsBack most room (level + 1) w := h _ List.mem_cons_self
    rw [membersAt, List.length_append, List.length_append, List.length_cons, List.length_append,
      List.length_cons, List.length_cons] at hfuel
    obtain ⟨fuel, rfl⟩ : ∃ n, fuel = n + 1 := ⟨fuel - 1, by omega⟩
    have hrest := ih (fun u hu => hnames u (List.mem_cons_of_mem _ hu))
      (fun u hu => hreadable u (List.mem_cons_of_mem _ hu))
      (fun u hu => h u (List.mem_cons_of_mem _ hu)) name' hw hback' fuel (by omega)
    have hcomma : skipBlanks (membersAt level (((name' : Letters), w) :: ms) ++ rest) =
        ',' :: (newLine (level + 1) ++ (quote name' ++
          ':' :: ' ' :: (w.renderAt (level + 1) ++ (membersAt level ms ++ rest)))) := by
      simp only [membersAt, List.cons_append, List.append_assoc]
      rfl
    have hquote : ∀ t, skipBlanks (quote name' ++ t) = quote name' ++ t := fun _ => rfl
    rw [readMembers_first name hv hback _ (stops_membersAt level _ rest) (by omega), hcomma]
    simp only [skipBlanks_newLine, hquote, hrest]
    rfl

theorem readValue_list {fuel room : ℕ} {c : Char} {t s : Text} (ht : skipBlanks t = c :: s)
    (hc : c ∉ notBeginning) : readValue most (fuel + 1) (room + 1) ('[' :: t) =
      (readElements most fuel room (c :: s)).map fun r => (list r.1, r.2) := by
  have hclose : c ≠ ']' := fun e => hc (e ▸ by decide)
  rw [readValue, ht]
  split
  · next e => exact (hclose (List.cons.inj e).1).elim
  · rfl

theorem readValue_object {fuel room : ℕ} {c : Char} {t s : Text} (ht : skipBlanks t = c :: s)
    (hc : c ∉ notBeginning) : readValue most (fuel + 1) (room + 1) ('\x7b' :: t) =
      (readMembers most fuel room (c :: s)).map fun r => (object (Table.ofPairs r.1), r.2) := by
  have hclose : c ≠ '\x7d' := fun e => hc (e ▸ by decide)
  rw [readValue, ht]
  split
  · next e => exact (hclose (List.cons.inj e).1).elim
  · rfl

theorem readsBack_list {room level : ℕ} {vs : List Json} (hvs : ∀ v ∈ vs, Readable most room v)
    (h : ∀ v ∈ vs, ReadsBack most room (level + 1) v) :
    ReadsBack most (room + 1) level (list vs) := by
  refine readsBack_of_succ (.list hvs) fun fuel rest _ hfuel => ?_
  cases vs with
  | nil => rfl
  | cons v vs =>
    have hwritten : (list (v :: vs)).renderAt level ++ rest =
        '[' :: (newLine (level + 1) ++ (v.renderAt (level + 1) ++ (restAt level vs ++ rest))) := by
      simp [renderAt]
    rw [renderAt, List.length_append, List.length_append, List.length_cons] at hfuel
    have hread := readElements_renderAt (fun w hw => hvs w (List.mem_cons_of_mem _ hw))
      (fun w hw => h w (List.mem_cons_of_mem _ hw)) (hvs v List.mem_cons_self)
      (h v List.mem_cons_self) fuel rest (by omega)
    obtain ⟨c, s, hc, hbegins⟩ := exists_renderAt (hvs v List.mem_cons_self) (level + 1)
    have hstart := skipBlanks_of_begins hbegins (s ++ (restAt level vs ++ rest))
    rw [← List.cons_append, ← hc, ← skipBlanks_newLine (level + 1), hc, List.cons_append] at hstart
    rw [hc, List.cons_append] at hread
    rw [hwritten, hc, List.cons_append, readValue_list hstart hbegins, hread]
    rfl

theorem readsBack_object {room level : ℕ} {ms : List (Letters × Json)}
    (hn : (ms.map Prod.fst).Nodup) (hnames : ∀ m ∈ ms, ∃ t : Text, m.1 = t)
    (hms : ∀ m ∈ ms, Readable most room m.2) (h : ∀ m ∈ ms, ReadsBack most room (level + 1) m.2) :
    ReadsBack most (room + 1) level (object ms) := by
  refine readsBack_of_succ (.object hn hnames hms) fun fuel rest _ hfuel => ?_
  rcases ms with _ | ⟨⟨name, v⟩, ms⟩
  · rfl
  · have hwritten : (object ((name, v) :: ms)).renderAt level ++ rest =
        '\x7b' :: (newLine (level + 1) ++ (quote name ++
          ':' :: ' ' :: (v.renderAt (level + 1) ++ (membersAt level ms ++ rest)))) := by
      simp [renderAt]
    have hlater : ∀ m ∈ ms, m ∈ (name, v) :: ms := fun _ => List.mem_cons_of_mem _
    obtain ⟨t, ht⟩ := hnames _ List.mem_cons_self
    have hv : Readable most room v := hms _ List.mem_cons_self
    have hback : ReadsBack most room (level + 1) v := h _ List.mem_cons_self
    simp only [renderAt, List.length_append, List.length_cons] at hfuel
    have hread := readMembers_renderAt (fun m hm => hnames m (hlater m hm))
      (fun m hm => hms m (hlater m hm)) (fun m hm => h m (hlater m hm)) t hv hback fuel rest
      (by omega)
    rw [← ht, quote, List.cons_append, List.cons_append] at hread
    rw [hwritten, quote, List.cons_append, List.cons_append,
      readValue_object (by rw [skipBlanks_newLine]; rfl) (by decide), hread, Except.map]
    dsimp only
    rw [Table.ofPairs_of_nodup hn]

/-- **Every readable value is read back.** -/
theorem readsBack {room : ℕ} {v : Json} (h : Readable most room v) (level : ℕ) :
    ReadsBack most room level v := by
  induction h generalizing level with
  | null => exact readsBack_null
  | bool b => exact readsBack_bool b
  | whole h => exact readsBack_whole h
  | text t => exact readsBack_text t
  | list hvs ih => exact readsBack_list hvs fun v hv => ih v hv (level + 1)
  | object hn hnames hms ih =>
    exact readsBack_object hn hnames hms fun m hm => ih m hm (level + 1)

/-- **A reader gives back the value that a document was written from**, if its limits let it. -/
theorem readUnder_renderIndented {limits : Limits} {v : Json}
    (h : Readable limits.digits limits.depth v) : readUnder limits v.renderIndented = .ok v := by
  obtain ⟨c, t, hc, hbegins⟩ := exists_renderAt h 0
  have hmark : v.renderIndented.startsWith ['\uFEFF'] = false := by
    have hne : '\uFEFF' ≠ c := fun e => hbegins (e ▸ by decide)
    rw [renderIndented, hc, Text.startsWith]
    simp [List.isPrefixOf, hne]
  have hstart : skipBlanks v.renderIndented = v.renderIndented := by
    have hskip := skipBlanks_renderAt h 0 []
    rwa [List.append_nil] at hskip
  have hread := readsBack h 0 (2 * v.renderIndented.length + 2) [] (by intro c hc; cases hc)
    (Nat.le_add_right _ 2)
  rw [List.append_nil] at hread
  rw [readUnder, hmark, hstart]
  simp only [Bool.false_eq_true, if_false, bind, Except.bind]
  change readValue _ _ _ v.renderIndented = _ at hread
  rw [hread]
  rfl

end IncludeTrace.Json
