import IncludeTrace.Export.Xml
import IncludeTrace.Proofs.Path.Normal
import IncludeTrace.Proofs.Transcript.Written
import IncludeTrace.Table
import IncludeTrace.Text.Lines
import IncludeTrace.Text.Numeral

/-!
# A reader of XML

`Xml.read` reads a document by the rules of XML 1.0: only some characters may occur at all, line ends
are unified before anything else is looked at, references stand for characters, and a blank in the
value of an attribute is a space. It knows no comments, sections and processing instructions. What it
gives is a tree of elements, each with the text in front of its first child.

A document is read piece by piece, a piece being what follows one opening bracket up to the next: a tag,
and the text behind it. This module shows that pieces are read as they were written. A text whose
characters were escaped one by one is unescaped again (`Xml.Escapes.unescape_flatMap`), in front of
whatever else; so are the attributes of a tag (`Xml.readAttributes_flatMap`), and with them the tag
itself (`Xml.readPiece_opening`, `Xml.readPiece_closing`).
-/

namespace IncludeTrace

namespace Text

variable {separator : Char} {s : Text}

/-- A text without separators becomes part of the first piece of what follows. -/
theorem pieces_append (h : separator ∉ s) (t : Text) :
    pieces separator (s ++ t) = (pieces separator t).modifyHead (s ++ ·) := by
  obtain ⟨first, others, hpieces⟩ := List.exists_cons_of_ne_nil (pieces_ne_nil separator t)
  induction s with
  | nil => simp [hpieces]
  | cons c s ih =>
    rw [List.mem_cons, not_or] at h
    rw [List.cons_append, pieces_cons_of_ne (Ne.symm h.1), ih h.2, hpieces]
    rfl

/-- A text is cut at its first separator. -/
theorem cut?_append_cons (h : separator ∉ s) (t : Text) :
    cut? [separator] (s ++ separator :: t) = some (s, t) := by
  induction s with
  | nil => exact cut?_append [separator] t
  | cons c s ih =>
    rw [List.mem_cons, not_or] at h
    simp [cut?, ih h.2, h.1]

end Text

namespace Xml

/-! ### Characters and references -/

/-- The characters that a document may have. -/
def isChar (c : Char) : Bool :=
  c = '\t' || c = '\n' || c = '\r' || (0x20 ≤ c.toNat && c.toNat ≤ 0xD7FF) ||
    (0xE000 ≤ c.toNat && c.toNat ≤ 0xFFFD) || 0x10000 ≤ c.toNat

/-- The blanks of XML. -/
def isSpace (c : Char) : Bool := c = ' ' || c = '\t' || c = '\n' || c = '\r'

/-- The names that stand for characters. -/
def entities : Table Char := [("amp", '&'), ("lt", '<'), ("gt", '>'), ("quot", '"'), ("apos", '\'')]

/-- The character that a reference stands for: a name, or the number of the character. -/
def reference? : Text → Option Char
  | '#' :: digits =>
    if digits.isEmpty || !digits.all Char.isDigit then none
    else (some (Char.ofNat (Numeral.ofDigits digits))).filter isChar
  | name => entities.get? name

/-- A text that begins behind an ampersand, with the reference there resolved. -/
def resolve? (t : Text) : Option Text := do
  let (name, rest) ← Text.cut? [';'] t
  return (← reference? name) :: rest

/-- A text with its references resolved. -/
def unescape (t : Text) : Option Text :=
  match Text.pieces '&' t with
  | [] => some []
  | first :: others => (others.mapM resolve?).map fun rest => first ++ rest.flatten

/-- The value of an attribute, as it stands between its quotes. -/
def attributeValue (t : Text) : Option Text := unescape (t.map fun c => if isSpace c then ' ' else c)

/-! ### Tags -/

/-- Whether a character may stand in a name. -/
def isNameChar (c : Char) : Bool := c.isAlphanum || c = '.' || c = '-' || c = '_' || c = ':'

/-- Whether a text is a name. -/
def isName (t : Text) : Bool :=
  t.all isNameChar && t.head?.any fun c => c.isAlpha || c = '_' || c = ':'

/-- Where in a tag its reader stands: in front of the next attribute or the end, behind a value, in a
name, behind the equals sign, in a value, or behind the slash of an empty element. -/
inductive Place
  | blank
  | behind
  | name (name : Text)
  | equals (name : Text)
  | value (name : Text) (mark : Char) (value : Text)
  | slash

/-- The attributes of a tag from a place on, behind those read before; whether the element is empty;
and what follows the tag. -/
def readAttributes : Place → List (Text × Text) → Text →
    Option (List (Text × Text) × Bool × Text)
  | _, _, [] => none
  | .blank, read, c :: t =>
    if c = '>' then some (read, false, t)
    else if c = '/' then readAttributes .slash read t
    else if isSpace c then readAttributes .blank read t
    else if isNameChar c then readAttributes (.name [c]) read t
    else none
  | .behind, read, c :: t =>
    if c = '>' then some (read, false, t)
    else if c = '/' then readAttributes .slash read t
    else if isSpace c then readAttributes .blank read t
    else none
  | .name name, read, c :: t =>
    if c = '=' then if isName name then readAttributes (.equals name) read t else none
    else if isNameChar c then readAttributes (.name (name ++ [c])) read t
    else none
  | .equals name, read, c :: t =>
    if c = '"' || c = '\'' then readAttributes (.value name c []) read t else none
  | .value name mark value, read, c :: t =>
    if c = mark then
      match attributeValue value with
      | some v => readAttributes .behind (read ++ [(name, v)]) t
      | none => none
    else readAttributes (.value name mark (value ++ [c])) read t
  | .slash, read, c :: t => if c = '>' then some (read, true, t) else none

/-- What stands between angle brackets. -/
inductive Markup
  | opening (tag : Text) (attributes : List (Text × Text)) (isEmpty : Bool)
  | closing (tag : Text)

/-- The markup that a piece begins with, and the text behind it. No attribute may be given twice. -/
def readPiece : Text → Option (Markup × Text)
  | '/' :: t =>
    match t.dropWhile isNameChar with
    | '>' :: text => (unescape text).map fun text => (.closing (t.takeWhile isNameChar), text)
    | _ => none
  | t => do
    let (attributes, isEmpty, text) ← readAttributes .behind [] (t.dropWhile isNameChar)
    if isName (t.takeWhile isNameChar) && (attributes.map Prod.fst).Nodup then
      return (.opening (t.takeWhile isNameChar) attributes isEmpty, ← unescape text)
    else none

/-! ### Trees -/

/-- An element as it is read: with the text in front of its first child. -/
structure Node where
  tag : Text
  attributes : List (Text × Text)
  text : Text
  children : List Node

/-- An element whose end was not read yet, with the elements in front of it. -/
structure Frame where
  tag : Text
  attributes : List (Text × Text)
  text : Text
  before : List Node

/-- Whether a text may stand behind an element: outside the root there are only blanks. -/
def mayFollow (stack : List Frame) (text : Text) : Bool := !stack.isEmpty || text.all isSpace

/-- The elements that pieces spell, given those whose end is still to come and the elements that were
read in the innermost of them. -/
def build : List Frame → List Node → List Text → Option (List Node)
  | stack, read, [] => if stack.isEmpty then some read else none
  | stack, read, piece :: rest =>
    match readPiece piece, stack with
    | none, _ => none
    | some (.opening tag attributes false, text), stack =>
      build (⟨tag, attributes, text, read⟩ :: stack) [] rest
    | some (.opening tag attributes true, text), stack =>
      if mayFollow stack text then build stack (read ++ [⟨tag, attributes, [], []⟩]) rest else none
    | some (.closing tag, text), frame :: stack =>
      if tag = frame.tag && mayFollow stack text then
        build stack (frame.before ++ [⟨frame.tag, frame.attributes, frame.text, read⟩]) rest
      else none
    | some (.closing _, _), [] => none

/-- The pieces of a text that begin behind its opening brackets. -/
def bracketed (t : Text) : List Text := (Text.pieces '<' t).tail

/-- What follows the declaration of a document, if it has one. -/
def body? (t : Text) : Option Text :=
  if t.startsWith "<?xml " then (Text.cut? "?>" t).map Prod.snd else some t

/-- **Reads** a document: its root. -/
def read (document : Text) : Option Node := do
  if document.all isChar then
    let body ← body? document.unifyLines
    if (body.takeWhile (· ≠ '<')).all isSpace then
      match build [] [] (bracketed body) with
      | some [root] => root
      | _ => none
    else none
  else none

/-! ### References are read back -/

variable {c : Char} {t rest : Text}

theorem unescape_cons (hc : c ≠ '&') (t : Text) : unescape (c :: t) = (unescape t).map (c :: ·) := by
  obtain ⟨first, others, hpieces⟩ := List.exists_cons_of_ne_nil (Text.pieces_ne_nil '&' t)
  rw [unescape, unescape, Text.pieces_cons_of_ne hc, hpieces, List.modifyHead_cons]
  simp only [Option.map_map]
  rfl

theorem unescape_of_not_mem (h : '&' ∉ t) : unescape t = some t := by
  rw [unescape, Text.pieces_of_not_mem h]
  simp

/-- A name between an ampersand and a semicolon is read as the character it stands for. -/
theorem unescape_reference (name : Text) (hname : '&' ∉ name) (hcut : ';' ∉ name)
    (hc : reference? name = some c) (t : Text) :
    unescape ('&' :: name ++ ';' :: t) = (unescape t).map (c :: ·) := by
  obtain ⟨first, others, hpieces⟩ := List.exists_cons_of_ne_nil (Text.pieces_ne_nil '&' t)
  have hfirst : Text.pieces '&' (name ++ ';' :: t) = (name ++ ';' :: first) :: others := by
    rw [Text.pieces_append hname, Text.pieces_cons_of_ne (by decide), hpieces]
    rfl
  have hresolve : resolve? (name ++ ';' :: first) = some (c :: first) := by
    rw [resolve?, Text.cut?_append_cons hcut]
    simp [hc]
  rw [List.cons_append, unescape, unescape, Text.pieces_cons_self, hfirst, hpieces]
  simp only [List.mapM_cons, hresolve, Option.bind_eq_bind, Option.bind_some, Option.pure_def]
  cases others.mapM resolve? <;> rfl

/-- A way to write characters in which each is read as itself, in front of whatever else. -/
def Escapes (escape : Char → Text) : Prop :=
  ∀ c t, unescape (escape c ++ t) = (unescape t).map (c :: ·)

/-- **What is written character by character is read back.** -/
theorem Escapes.unescape_flatMap {escape : Char → Text} (h : Escapes escape) (t : Text) :
    unescape (t.flatMap escape) = some t := by
  induction t with
  | nil => rfl
  | cons c t ih => rw [List.flatMap_cons, h, ih, Option.map_some]

theorem escapes_escapeText : Escapes escapeText := by
  intro c t
  rw [escapeText.eq_def]
  split
  · exact unescape_reference "amp" (by decide) (by decide) (by decide) t
  · exact unescape_reference "lt" (by decide) (by decide) (by decide) t
  · exact unescape_reference "gt" (by decide) (by decide) (by decide) t
  · next hamp _ _ => exact unescape_cons hamp t

theorem escapes_escapeAttribute : Escapes escapeAttribute := by
  intro c t
  rw [escapeAttribute.eq_def]
  split
  · exact unescape_reference "amp" (by decide) (by decide) (by decide) t
  · exact unescape_reference "lt" (by decide) (by decide) (by decide) t
  · exact unescape_reference "gt" (by decide) (by decide) (by decide) t
  · exact unescape_reference "quot" (by decide) (by decide) (by decide) t
  · exact unescape_reference "#13" (by decide) (by decide) (by decide) t
  · exact unescape_reference "#10" (by decide) (by decide) (by decide) t
  · exact unescape_reference "#09" (by decide) (by decide) (by decide) t
  · next hamp _ _ _ _ _ _ => exact unescape_cons hamp t

/-! ### Tags are read back -/

/-- The written value of an attribute has neither a quote nor a bracket, and no blank but spaces. -/
theorem of_mem_escapeAttribute {d : Char} (h : d ∈ escapeAttribute c) :
    d ≠ '"' ∧ d ≠ '<' ∧ (isSpace d = true → d = ' ') := by
  rw [escapeAttribute.eq_def] at h
  split at h
  case h_8 hquote hcr hlf htab =>
    obtain rfl := List.mem_singleton.mp h
    refine ⟨hquote, by assumption, fun hspace => ?_⟩
    simp only [isSpace, Bool.or_eq_true, decide_eq_true_eq] at hspace
    rcases hspace with ((h | h) | h) | h
    · exact h
    · exact (htab h).elim
    · exact (hlf h).elim
    · exact (hcr h).elim
  all_goals
    simp only [String.reduceToList, List.mem_cons, List.not_mem_nil, or_false] at h
    repeat' obtain rfl | h := h
    all_goals decide

theorem not_mem_escapeText : '<' ∉ escapeText c := by
  rw [escapeText.eq_def]
  split
  case h_4 => simpa [eq_comm]
  all_goals decide

/-- The value of an attribute is read back from between its quotes. -/
theorem attributeValue_flatMap (v : Text) : attributeValue (v.flatMap escapeAttribute) = some v := by
  have hblanks : (v.flatMap escapeAttribute).map (fun c => if isSpace c then ' ' else c) =
      v.flatMap escapeAttribute := by
    refine (List.map_congr_left fun d hd => ?_).trans (List.map_id' _)
    obtain ⟨c, -, hc⟩ := List.mem_flatMap.mp hd
    split
    · next hspace => exact ((of_mem_escapeAttribute hc).2.2 hspace).symm
    · rfl
  rw [attributeValue, hblanks, escapes_escapeAttribute.unescape_flatMap]

variable {name : Text} {earlier : List (Text × Text)}

theorem isNameChar_of_isName (h : isName name = true) : ∀ c ∈ name, isNameChar c = true := by
  rw [isName, Bool.and_eq_true, List.all_eq_true] at h
  exact h.1

theorem readAttributes_name {first : Text} (h : ∀ c ∈ name, isNameChar c = true) (t : Text) :
    readAttributes (.name first) earlier (name ++ t) =
      readAttributes (.name (first ++ name)) earlier t := by
  induction name generalizing first with
  | nil => simp
  | cons c name ih =>
    obtain ⟨hc, hname⟩ := List.forall_mem_cons.mp h
    have hequals : c ≠ '=' := by
      rintro rfl
      exact absurd hc (by decide)
    rw [List.cons_append, readAttributes, if_neg hequals, if_pos hc, ih hname, List.append_assoc]
    rfl

theorem readAttributes_value {mark : Char} {first v : Text} (h : mark ∉ v) (t : Text) :
    readAttributes (.value name mark first) earlier (v ++ mark :: t) =
      match attributeValue (first ++ v) with
      | some v => readAttributes .behind (earlier ++ [(name, v)]) t
      | none => none := by
  induction v generalizing first with
  | nil => rw [List.nil_append, readAttributes, if_pos rfl, List.append_nil]
  | cons c v ih =>
    rw [List.mem_cons, not_or] at h
    rw [List.cons_append, readAttributes, if_neg (Ne.symm h.1), ih h.2, List.append_assoc]
    rfl

/-- **A written attribute is read as itself.** -/
theorem readAttributes_attributeText {a : Text × Text} (h : isName a.1 = true) (t : Text) :
    readAttributes .behind earlier (attributeText a ++ t) =
      readAttributes .behind (earlier ++ [a]) t := by
  obtain ⟨name, v⟩ := a
  obtain ⟨c, rest, rfl⟩ : ∃ c rest, name = c :: rest := by
    cases name with
    | nil => cases h
    | cons c rest => exact ⟨c, rest, rfl⟩
  obtain ⟨hc, hrest⟩ := List.forall_mem_cons.mp (isNameChar_of_isName h)
  have hwritten : attributeText (c :: rest, v) ++ t =
      ' ' :: c :: (rest ++ '=' :: '"' :: (v.flatMap escapeAttribute ++ '"' :: t)) := by
    simp [attributeText]
  have hquote : '"' ∉ v.flatMap escapeAttribute := by
    intro hmem
    obtain ⟨d, -, hd⟩ := List.mem_flatMap.mp hmem
    exact (of_mem_escapeAttribute hd).1 rfl
  have hstart : c ≠ '>' ∧ c ≠ '/' ∧ isSpace c = false := by
    refine ⟨?_, ?_, ?_⟩
    · rintro rfl
      exact absurd hc (by decide)
    · rintro rfl
      exact absurd hc (by decide)
    · rw [Bool.eq_false_iff]
      intro hspace
      have hblank : c = ' ' ∨ c = '\t' ∨ c = '\n' ∨ c = '\r' := by
        simpa [isSpace, or_assoc] using hspace
      rcases hblank with rfl | rfl | rfl | rfl <;> exact absurd hc (by decide)
  calc readAttributes .behind earlier (attributeText (c :: rest, v) ++ t)
      = readAttributes (.name [c]) earlier
          (rest ++ '=' :: '"' :: (v.flatMap escapeAttribute ++ '"' :: t)) := by
        rw [hwritten, readAttributes, if_neg (by decide), if_neg (by decide), if_pos (by decide),
          readAttributes, if_neg hstart.1, if_neg hstart.2.1, if_neg (by simp [hstart.2.2]),
          if_pos hc]
    _ = readAttributes (.value (c :: rest) '"' []) earlier (v.flatMap escapeAttribute ++ '"' :: t) := by
        rw [readAttributes_name hrest, List.singleton_append, readAttributes, if_pos rfl, if_pos h,
          readAttributes, if_pos (by decide)]
    _ = readAttributes .behind (earlier ++ [(c :: rest, v)]) t := by
        rw [readAttributes_value hquote, List.nil_append, attributeValue_flatMap]

theorem readAttributes_flatMap {attributes : List (Text × Text)}
    (h : ∀ a ∈ attributes, isName a.1 = true) (t : Text) :
    readAttributes .behind earlier (attributes.flatMap attributeText ++ t) =
      readAttributes .behind (earlier ++ attributes) t := by
  induction attributes generalizing earlier with
  | nil => simp
  | cons a rest ih =>
    obtain ⟨ha, hrest⟩ := List.forall_mem_cons.mp h
    rw [List.flatMap_cons, List.append_assoc, readAttributes_attributeText ha, ih hrest,
      List.append_assoc]
    rfl

/-- Texts that may be the names of the attributes of one element: names, and no two the same. -/
def AreNames (names : List Text) : Prop := (∀ name ∈ names, isName name = true) ∧ names.Nodup

instance (names : List Text) : Decidable (AreNames names) := inferInstanceAs (Decidable (_ ∧ _))

variable {tag text : Text} {attributes : List (Text × Text)}

/-- What a piece reads that begins with a tag and its attributes. -/
theorem readPiece_opening (isEmpty : Bool) (ending : Text) (htag : isName tag = true)
    (hnames : AreNames (attributes.map Prod.fst))
    (hending : readAttributes .behind attributes (ending ++ t) = some (attributes, isEmpty, t))
    (hstart : ending.head?.any isNameChar = false ∧ ending ≠ []) (htext : unescape t = some text) :
    readPiece (tag ++ attributes.flatMap attributeText ++ ending ++ t) =
      some (.opening tag attributes isEmpty, text) := by
  obtain ⟨c, rest, rfl⟩ : ∃ c rest, tag = c :: rest := by
    cases tag with
    | nil => cases htag
    | cons c rest => exact ⟨c, rest, rfl⟩
  have hchars := isNameChar_of_isName htag
  -- the tag ends at the blank of an attribute, or at the end of the markup
  obtain ⟨d, after, hd, hafter⟩ : ∃ d after, isNameChar d = false ∧
      attributes.flatMap attributeText ++ ending ++ t = d :: after := by
    cases attributes with
    | nil =>
      obtain ⟨d, after, rfl⟩ := List.exists_cons_of_ne_nil hstart.2
      exact ⟨d, after ++ t, by simpa using hstart.1, rfl⟩
    | cons a as => exact ⟨' ', _, by decide, rfl⟩
  have htake : (c :: rest ++ d :: after).takeWhile isNameChar = c :: rest := by
    rw [List.takeWhile_append_of_pos hchars]
    simp [hd]
  have hdrop : (c :: rest ++ d :: after).dropWhile isNameChar = d :: after := by
    rw [List.dropWhile_append_of_pos hchars]
    simp [hd]
  have hread : readAttributes .behind [] (d :: after) = some (attributes, isEmpty, t) := by
    rw [← hafter, List.append_assoc, readAttributes_flatMap fun a ha => hnames.1 a.1 (List.mem_map_of_mem ha)]
    exact hending
  have hslash : c ≠ '/' := by
    rintro rfl
    exact absurd (hchars '/' List.mem_cons_self) (by decide)
  rw [List.append_assoc, List.append_assoc, ← List.append_assoc _ ending, hafter, List.cons_append,
    readPiece]
  · rw [← List.cons_append, htake, hdrop, hread]
    simp [htag, hnames.2, htext]
  · rintro t' ht'
    exact hslash (List.cons.inj ht').1

theorem readPiece_closing (htag : isName tag = true) (htext : unescape t = some text) :
    readPiece ('/' :: tag ++ '>' :: t) = some (.closing tag, text) := by
  have hchars := isNameChar_of_isName htag
  have htake : (tag ++ '>' :: t).takeWhile isNameChar = tag := by
    rw [List.takeWhile_append_of_pos hchars]
    simp [show isNameChar '>' = false by decide]
  have hdrop : (tag ++ '>' :: t).dropWhile isNameChar = '>' :: t := by
    rw [List.dropWhile_append_of_pos hchars]
    simp [show isNameChar '>' = false by decide]
  rw [List.cons_append, readPiece, hdrop, htake]
  simp [htext]

end Xml

end IncludeTrace
