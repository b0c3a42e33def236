import IncludeTrace.Proofs.Text.Lines
import IncludeTrace.Proofs.Xml.Reader

/-!
# Reading XML documents back

A written element is read as itself in front of whatever else, one lemma for every kind of tag
(`Xml.build_opening`, `Xml.build_empty`, `Xml.build_closing`); so an element that has the right names is
read back with everything in it (`Xml.Readable.readsBack`).

Two things happen to a document before its markup is looked at. It is refused if it has a character
that may not occur; writing hides no such character, so this is decided by what the elements carry
(`Xml.Readable.allowed_renderAt`). And its line ends are unified. In the value of an attribute a
carriage return is written as a reference and stays what it is; in a text it is written as it stands,
and a line feed is read (`Xml.Readable.unifyLines_renderAt`). `Xml.read_document` says so for the
document as a whole.
-/

namespace IncludeTrace.Xml

variable {c : Char} {t rest name tag text : Text} {attributes : List (Text × Text)}

/-! ### Elements are read back -/

/-- The text in front of the first child of an element: the beginning of its line. -/
def leading (level : Nat) : List Element → Text
  | [] => []
  | _ :: _ => newLine level

mutual

/-- An element as it is read where it was written at a level of indentation. -/
def Element.node (level : Nat) : Element → Node
  | .leaf tag attributes text => ⟨tag, attributes, text, []⟩
  | .branch tag attributes children =>
    ⟨tag, attributes, leading (level + 1) children, nodes (level + 1) children⟩

/-- Elements as they are read. -/
def nodes (level : Nat) : List Element → List Node
  | [] => []
  | e :: es => e.node level :: nodes level es

end

/-- An element that **can be read back**: its tag and the names of its attributes are names, and so it
is with its children. -/
inductive Readable : Element → Prop
  | leaf {tag : Text} {attributes : List (Text × Text)} {text : Text} (htag : isName tag = true)
      (hnames : AreNames (attributes.map Prod.fst)) : Readable (.leaf tag attributes text)
  | branch {tag : Text} {attributes : List (Text × Text)} {children : List Element}
      (htag : isName tag = true) (hnames : AreNames (attributes.map Prod.fst))
      (h : ∀ e ∈ children, Readable e) : Readable (.branch tag attributes children)

/-- Where the text behind a tag ends: at the next bracket, or with the document. -/
def Stops (rest : Text) : Prop := ∀ c ∈ rest.head?, c = '<'

theorem bracketed_cons {piece : Text} (h : '<' ∉ piece) (hrest : Stops rest) :
    bracketed ('<' :: piece ++ rest) = piece :: bracketed rest := by
  rw [bracketed, List.cons_append, Text.pieces_cons_self, List.tail_cons, Text.pieces_append h,
    bracketed]
  cases rest with
  | nil => simp [Text.pieces]
  | cons c rest =>
    obtain rfl := hrest c rfl
    simp [Text.pieces_cons_self]

theorem bracket_not_mem_of_isName (h : isName tag = true) : '<' ∉ tag := fun hmem =>
  absurd (isNameChar_of_isName h '<' hmem) (by decide)

theorem bracket_not_mem_attributes (h : AreNames (attributes.map Prod.fst)) :
    '<' ∉ attributes.flatMap attributeText := by
  intro hmem
  obtain ⟨a, ha, hbracket⟩ := List.mem_flatMap.mp hmem
  have hname := bracket_not_mem_of_isName (h.1 a.1 (List.mem_map_of_mem ha))
  have hvalue : '<' ∉ a.2.flatMap escapeAttribute := by
    intro hmem
    obtain ⟨c, -, hc⟩ := List.mem_flatMap.mp hmem
    exact (of_mem_escapeAttribute hc).2.1 rfl
  simp [attributeText, hname] at hbracket
  exact hvalue (by simpa using hbracket)

/-- Blanks are read as they stand, and begin no markup. -/
theorem of_all_isSpace (h : t.all isSpace = true) : unescape t = some t ∧ '<' ∉ t := by
  rw [List.all_eq_true] at h
  exact ⟨unescape_of_not_mem fun hmem => absurd (h _ hmem) (by decide),
    fun hmem => absurd (h _ hmem) (by decide)⟩

theorem all_isSpace_newLine (level : Nat) : (newLine level).all isSpace = true := by
  rw [List.all_eq_true]
  intro c hc
  rcases List.mem_cons.mp hc with rfl | hc
  · rfl
  · obtain rfl := List.eq_of_mem_replicate hc
    rfl

variable {stack : List Frame} {before : List Node} {tail : Text}

/-- The opening tag of an element that is not empty, with the text behind it. -/
theorem build_opening (htag : isName tag = true) (hnames : AreNames (attributes.map Prod.fst))
    (htext : unescape t = some text) (hbracket : '<' ∉ t) (hrest : Stops rest) :
    build stack before (bracketed (openingText tag attributes ++ '>' :: t ++ rest)) =
      build (⟨tag, attributes, text, before⟩ :: stack) [] (bracketed rest) := by
  have hread := readPiece_opening false ['>'] htag hnames
    (by rw [List.singleton_append, readAttributes, if_pos rfl]) (by decide) htext
  have hpiece : openingText tag attributes ++ '>' :: t ++ rest =
      '<' :: (tag ++ attributes.flatMap attributeText ++ ['>'] ++ t) ++ rest := by
    simp [openingText]
  rw [hpiece, bracketed_cons _ hrest]
  · simp only [build, hread]
  · simp [bracket_not_mem_of_isName htag, bracket_not_mem_attributes hnames, hbracket]

/-- The tag of an empty element. -/
theorem build_empty (htag : isName tag = true) (hnames : AreNames (attributes.map Prod.fst))
    (htail : tail.all isSpace = true) (hrest : Stops rest) :
    build stack before (bracketed (openingText tag attributes ++ " />".toList ++ (tail ++ rest))) =
      build stack (before ++ [⟨tag, attributes, [], []⟩]) (bracketed rest) := by
  obtain ⟨htext, hbracket⟩ := of_all_isSpace htail
  have hread := readPiece_opening true " />".toList htag hnames
    (by simp [readAttributes, isSpace]) (by decide) htext
  have hpiece : openingText tag attributes ++ " />".toList ++ (tail ++ rest) =
      '<' :: (tag ++ attributes.flatMap attributeText ++ " />".toList ++ tail) ++ rest := by
    simp [openingText]
  rw [hpiece, bracketed_cons _ hrest]
  · simp only [build, hread, mayFollow, htail, Bool.or_true, if_true]
  · simp [bracket_not_mem_of_isName htag, bracket_not_mem_attributes hnames, hbracket]

/-- The closing tag of the innermost element. -/
theorem build_closing (htag : isName tag = true) (htail : tail.all isSpace = true)
    (hrest : Stops rest) {siblings : List Node} :
    build (⟨tag, attributes, text, siblings⟩ :: stack) before
        (bracketed (closingText tag ++ (tail ++ rest))) =
      build stack (siblings ++ [⟨tag, attributes, text, before⟩]) (bracketed rest) := by
  obtain ⟨htext, hbracket⟩ := of_all_isSpace htail
  have hpiece : closingText tag ++ (tail ++ rest) = '<' :: ('/' :: tag ++ '>' :: tail) ++ rest := by
    simp [closingText]
  rw [hpiece, bracketed_cons _ hrest]
  · simp only [build, readPiece_closing htag htext, mayFollow, htail, Bool.or_true, decide_true,
      Bool.and_self, if_true]
  · simp [bracket_not_mem_of_isName htag, hbracket]

theorem stops_closingText (tag t : Text) : Stops (closingText tag ++ t) := by
  rintro c ⟨⟩
  rfl

theorem stops_renderAt (e : Element) (level : Nat) (t : Text) : Stops (e.renderAt level ++ t) := by
  intro c hc
  cases e with
  | leaf tag attributes text =>
    cases text <;> exact (Option.some.inj hc).symm
  | branch tag attributes children =>
    cases children <;> exact (Option.some.inj hc).symm

/-- An element at a level is **read back** if it is read as itself wherever it stands. -/
def ReadsBack (level : Nat) (e : Element) : Prop :=
  ∀ stack before tail rest, tail.all isSpace = true → Stops rest →
    build stack before (bracketed (e.renderAt level ++ (tail ++ rest))) =
      build stack (before ++ [e.node level]) (bracketed rest)

/-- Elements on lines of their own are read back one after another. -/
theorem build_renderRest {level : Nat} {e : Element} {es : List Element}
    (he : ReadsBack level e) (hes : ∀ e ∈ es, ReadsBack level e) (htail : tail.all isSpace = true)
    (hrest : Stops rest) :
    build stack before (bracketed (e.renderAt level ++ (renderRest level es ++ (tail ++ rest)))) =
      build stack (before ++ e.node level :: nodes level es) (bracketed rest) := by
  induction es generalizing e before with
  | nil =>
    rw [renderRest, List.nil_append, he stack before tail rest htail hrest]
    rfl
  | cons e' es ih =>
    obtain ⟨he', hes⟩ := List.forall_mem_cons.mp hes
    have hnext : renderRest level (e' :: es) ++ (tail ++ rest) =
        newLine level ++ (e'.renderAt level ++ (renderRest level es ++ (tail ++ rest))) := by
      simp [renderRest]
    rw [hnext, he stack before _ _ (all_isSpace_newLine level) (stops_renderAt e' level _),
      ih he' hes, List.append_assoc]
    rfl

/-- **An element that can be read back is read back** at every level. -/
theorem Readable.readsBack {e : Element} (h : Readable e) (level : Nat) : ReadsBack level e := by
  induction h generalizing level with
  | @leaf tag attributes text htag hnames =>
    intro stack before tail rest htail hrest
    cases text with
    | nil => exact build_empty htag hnames htail hrest
    | cons c text =>
      have hbracket : '<' ∉ (c :: text).flatMap escapeText := by
        simp [List.mem_flatMap, not_mem_escapeText]
      have hwritten : (Element.leaf tag attributes (c :: text)).renderAt level ++ (tail ++ rest) =
          openingText tag attributes ++ '>' :: (c :: text).flatMap escapeText ++
            (closingText tag ++ (tail ++ rest)) := by
        simp [Element.renderAt]
      rw [hwritten, build_opening htag hnames (escapes_escapeText.unescape_flatMap _) hbracket
        (stops_closingText _ _), build_closing htag htail hrest]
      rfl
  | @branch tag attributes children htag hnames _ ih =>
    intro stack before tail rest htail hrest
    cases children with
    | nil => exact build_empty htag hnames htail hrest
    | cons child children =>
      obtain ⟨hchild, hchildren⟩ := List.forall_mem_cons.mp ih
      obtain ⟨hnewLine, hbracket⟩ := of_all_isSpace (all_isSpace_newLine (level + 1))
      have hwritten : (Element.branch tag attributes (child :: children)).renderAt level ++
          (tail ++ rest) = openingText tag attributes ++ '>' :: newLine (level + 1) ++
            (child.renderAt (level + 1) ++ (renderRest (level + 1) children ++
              (newLine level ++ (closingText tag ++ (tail ++ rest))))) := by
        simp [Element.renderAt]
      rw [hwritten, build_opening htag hnames hnewLine hbracket (stops_renderAt _ _ _),
        build_renderRest (hchild _) (fun e he => hchildren e he _) (all_isSpace_newLine level)
          (stops_closingText _ _), build_closing htag htail hrest]
      rfl

/-! ### Allowed characters -/

mutual

/-- The characters that an element carries in the values of attributes and in texts. -/
def Element.content : Element → Text
  | .leaf _ attributes text => attributes.flatMap Prod.snd ++ text
  | .branch _ attributes children => attributes.flatMap Prod.snd ++ contents children

/-- The characters that elements carry. -/
def contents : List Element → Text
  | [] => []
  | e :: es => e.content ++ contents es

end

/-- A text is **allowed** if all its characters are. -/
def Allowed (t : Text) : Prop := ∀ c ∈ t, isChar c = true

instance (t : Text) : Decidable (Allowed t) := List.decidableBAll (fun c => isChar c = true) t

@[simp]
theorem allowed_nil : Allowed [] := List.forall_mem_nil _

@[simp]
theorem allowed_append {s t : Text} : Allowed (s ++ t) ↔ Allowed s ∧ Allowed t :=
  List.forall_mem_append

@[simp]
theorem allowed_cons : Allowed (c :: t) ↔ isChar c = true ∧ Allowed t := List.forall_mem_cons

theorem allowed_flatMap {α : Type} {l : List α} {f : α → Text} :
    Allowed (l.flatMap f) ↔ ∀ a ∈ l, Allowed (f a) := by
  simp only [Allowed, List.mem_flatMap]
  exact ⟨fun h a ha c hc => h c ⟨a, ha, hc⟩, fun h c ⟨a, ha, hc⟩ => h a ha c hc⟩

theorem isChar_of_isNameChar (h : isNameChar c = true) : isChar c = true := by
  simp only [isNameChar, Bool.or_eq_true, decide_eq_true_eq] at h
  rcases h with (((halphanum | rfl) | rfl) | rfl) | rfl
  · have hrange : 0x20 ≤ c.toNat ∧ c.toNat ≤ 0xD7FF := by
      delta Char.isAlphanum Char.isAlpha Char.isUpper Char.isLower Char.isDigit at halphanum
      simp only [Bool.or_eq_true, Bool.and_eq_true, decide_eq_true_eq, UInt32.le_iff_toNat_le,
        ge_iff_le] at halphanum
      have htoNat : c.toNat = c.val.toNat := rfl
      have hlow : '0'.val.toNat = 48 ∧ 'A'.val.toNat = 65 ∧ 'a'.val.toNat = 97 := ⟨rfl, rfl, rfl⟩
      have hhigh : '9'.val.toNat = 57 ∧ 'Z'.val.toNat = 90 ∧ 'z'.val.toNat = 122 := ⟨rfl, rfl, rfl⟩
      omega
    simp [isChar, hrange]
  all_goals decide

theorem allowed_of_isName (h : isName name = true) : Allowed name := fun c hc =>
  isChar_of_isNameChar (isNameChar_of_isName h c hc)

/-- Writing hides no character that is not allowed: none of them is escaped. -/
theorem allowed_escapeAttribute : Allowed (escapeAttribute c) ↔ isChar c = true := by
  rw [escapeAttribute.eq_def]
  split
  case h_8 => exact List.forall_mem_singleton
  all_goals decide

theorem allowed_escapeText : Allowed (escapeText c) ↔ isChar c = true := by
  rw [escapeText.eq_def]
  split
  case h_4 => exact List.forall_mem_singleton
  all_goals decide

theorem allowed_openingText (htag : isName tag = true) (hnames : AreNames (attributes.map Prod.fst)) :
    Allowed (openingText tag attributes) ↔ Allowed (attributes.flatMap Prod.snd) := by
  have hattribute : ∀ a ∈ attributes, Allowed (attributeText a) ↔ Allowed a.2 := by
    intro a ha
    have hname := allowed_of_isName (hnames.1 a.1 (List.mem_map_of_mem ha))
    have hvalue : Allowed (a.2.flatMap escapeAttribute) ↔ Allowed a.2 := by
      rw [allowed_flatMap]
      exact forall₂_congr fun _ _ => allowed_escapeAttribute
    have hmarks : Allowed [' '] ∧ Allowed ['=', '"'] ∧ Allowed ['"'] := by decide
    have hwritten : attributeText a =
        [' '] ++ a.1 ++ ['=', '"'] ++ a.2.flatMap escapeAttribute ++ ['"'] := by
      simp [attributeText]
    rw [hwritten]
    simp only [allowed_append, hname, hvalue, hmarks, true_and, and_true]
  have hopening : Allowed ('<' :: tag) :=
    allowed_cons.mpr ⟨by decide, allowed_of_isName htag⟩
  rw [openingText, allowed_append, allowed_flatMap, allowed_flatMap]
  exact (and_iff_right hopening).trans (forall₂_congr hattribute)

theorem allowed_closingText (htag : isName tag = true) : Allowed (closingText tag) := by
  have hmarks : Allowed ['<', '/'] ∧ Allowed ['>'] := by decide
  exact allowed_append.mpr ⟨allowed_append.mpr ⟨hmarks.1, allowed_of_isName htag⟩, hmarks.2⟩

theorem allowed_newLine (level : Nat) : Allowed (newLine level) := by
  intro c hc
  rcases List.mem_cons.mp hc with rfl | hc
  · decide
  · obtain rfl := List.eq_of_mem_replicate hc
    decide

theorem allowed_renderRest {level : Nat} {es : List Element}
    (h : ∀ e ∈ es, Allowed (e.renderAt level) ↔ Allowed e.content) :
    Allowed (renderRest level es) ↔ Allowed (contents es) := by
  induction es with
  | nil => exact iff_of_true allowed_nil allowed_nil
  | cons e es ih =>
    obtain ⟨he, hes⟩ := List.forall_mem_cons.mp h
    rw [renderRest, contents, allowed_append, allowed_append, allowed_append, ih hes, he]
    simp only [allowed_newLine, true_and]

/-- **What is written is allowed if and only if what the element carries is.** -/
theorem Readable.allowed_renderAt {e : Element} (h : Readable e) (level : Nat) :
    Allowed (e.renderAt level) ↔ Allowed e.content := by
  have hempty : Allowed " />".toList := by decide
  have hmark : isChar '>' = true := by decide
  induction h generalizing level with
  | @leaf tag attributes text htag hnames =>
    rw [Element.content, allowed_append, ← allowed_openingText htag hnames]
    cases text with
    | nil =>
      rw [Element.renderAt, allowed_append]
      exact and_congr_right fun _ => iff_of_true hempty allowed_nil
    | cons c text =>
      have hescaped : Allowed ((c :: text).flatMap escapeText) ↔ Allowed (c :: text) := by
        rw [allowed_flatMap]
        exact forall₂_congr fun _ _ => allowed_escapeText
      rw [Element.renderAt, allowed_append, allowed_append, allowed_cons, hescaped]
      · simp only [hmark, allowed_closingText htag, true_and, and_true]
      · exact List.cons_ne_nil c text
  | @branch tag attributes children htag hnames _ ih =>
    rw [Element.content, allowed_append, ← allowed_openingText htag hnames]
    cases children with
    | nil =>
      rw [Element.renderAt, allowed_append]
      exact and_congr_right fun _ => iff_of_true hempty allowed_nil
    | cons child children =>
      obtain ⟨hchild, hchildren⟩ := List.forall_mem_cons.mp ih
      have hrest := allowed_renderRest fun e he => hchildren e he (level + 1)
      rw [Element.renderAt, contents]
      simp only [allowed_append, allowed_cons, hmark, allowed_newLine, hchild, hrest,
        allowed_closingText htag, and_true, and_assoc]

/-! ### Line ends -/

mutual

/-- An element with the line ends of its texts unified. -/
def Element.unified : Element → Element
  | .leaf tag attributes text => .leaf tag attributes text.unifyLines
  | .branch tag attributes children => .branch tag attributes (unifiedAll children)

/-- Elements with the line ends of their texts unified. -/
def unifiedAll : List Element → List Element
  | [] => []
  | e :: es => e.unified :: unifiedAll es

end

theorem exists_unifyLines_cons (c : Char) (t : Text) :
    ∃ d s, Text.unifyLines (c :: t) = d :: s := by
  rw [Text.unifyLines.eq_def]
  split
  · next h => cases h
  · exact ⟨_, _, rfl⟩
  · exact ⟨_, _, rfl⟩

theorem escapeText_ne_nil (c : Char) : escapeText c ≠ [] := by
  rw [escapeText.eq_def]
  split <;> exact List.cons_ne_nil _ _

/-- Only line feeds are written as line feeds, and only carriage returns as carriage returns. -/
theorem of_mem_escapeText {d : Char} (h : d ∈ escapeText c) (hd : d = '\n' ∨ d = '\r') : d = c := by
  rw [escapeText.eq_def] at h
  split at h
  case h_4 => exact List.mem_singleton.mp h
  all_goals
    rcases hd with rfl | rfl
    all_goals exact absurd h (by decide)

/-- Line ends can be unified before a text is escaped or after. -/
theorem unifyLines_flatMap_escapeText (t rest : Text) :
    Text.unifyLines (t.flatMap escapeText ++ '<' :: rest) =
      t.unifyLines.flatMap escapeText ++ '<' :: rest.unifyLines := by
  fun_induction Text.unifyLines t with
  | case1 => exact Text.unifyLines_append (s := ['<']) (by decide) rest
  | case2 t ih =>
    exact congrArg ('\n' :: ·) ih
  | case3 c t hpair ih =>
    rw [List.flatMap_cons, List.flatMap_cons, List.append_assoc, List.append_assoc]
    split
    · next hcr =>
      subst hcr
      have hhead : (t.flatMap escapeText ++ '<' :: rest).head? ≠ some '\n' := by
        cases t with
        | nil => simp
        | cons d t =>
          obtain ⟨first, others, hd⟩ := List.exists_cons_of_ne_nil (escapeText_ne_nil d)
          intro hlf
          rw [List.flatMap_cons, hd] at hlf
          obtain rfl : first = '\n' := Option.some.inj hlf
          have hfirst : '\n' = d :=
            of_mem_escapeText (by rw [hd]; exact List.mem_cons_self) (.inl rfl)
          exact hpair t rfl (congrArg (· :: t) hfirst.symm)
      exact (Text.unifyLines_cr hhead).trans (congrArg ('\n' :: ·) ih)
    · next hcr =>
      rw [Text.unifyLines_append (fun h => hcr (of_mem_escapeText h (.inr rfl)).symm), ih]

theorem cr_not_mem_of_isName (h : isName name = true) : '\r' ∉ name := fun hmem =>
  absurd (isNameChar_of_isName h '\r' hmem) (by decide)

/-- In the value of an attribute a carriage return is written as a reference. -/
theorem cr_not_mem_openingText (htag : isName tag = true)
    (hnames : AreNames (attributes.map Prod.fst)) : '\r' ∉ openingText tag attributes := by
  have hattributes : '\r' ∉ attributes.flatMap attributeText := by
    intro hmem
    obtain ⟨a, ha, hcr⟩ := List.mem_flatMap.mp hmem
    have hname := cr_not_mem_of_isName (hnames.1 a.1 (List.mem_map_of_mem ha))
    have hvalue : '\r' ∉ a.2.flatMap escapeAttribute := by
      intro hmem
      obtain ⟨c, -, hc⟩ := List.mem_flatMap.mp hmem
      exact absurd ((of_mem_escapeAttribute hc).2.2 (by decide)) (by decide)
    simp [attributeText, hname] at hcr
    exact hvalue (by simpa using hcr)
  simp [openingText, cr_not_mem_of_isName htag, hattributes]

theorem cr_not_mem_closingText (htag : isName tag = true) : '\r' ∉ closingText tag := by
  simp [closingText, cr_not_mem_of_isName htag]

theorem cr_not_mem_newLine (level : Nat) : '\r' ∉ newLine level := by
  simp [newLine, List.mem_replicate]

theorem unifyLines_renderRest {level : Nat} {es : List Element}
    (h : ∀ e ∈ es, ∀ rest, Text.unifyLines (e.renderAt level ++ rest) =
      e.unified.renderAt level ++ rest.unifyLines) (rest : Text) :
    Text.unifyLines (renderRest level es ++ rest) =
      renderRest level (unifiedAll es) ++ rest.unifyLines := by
  induction es with
  | nil => rfl
  | cons e es ih =>
    obtain ⟨he, hes⟩ := List.forall_mem_cons.mp h
    simp only [renderRest, unifiedAll, List.append_assoc]
    rw [Text.unifyLines_append (cr_not_mem_newLine level), he, ih hes]

/-- **Unifying the line ends of what is written unifies those of its texts.** -/
theorem Readable.unifyLines_renderAt {e : Element} (h : Readable e) (level : Nat) (rest : Text) :
    Text.unifyLines (e.renderAt level ++ rest) = e.unified.renderAt level ++ rest.unifyLines := by
  have hempty : '\r' ∉ " />".toList := by decide
  induction h generalizing level rest with
  | @leaf tag attributes text htag hnames =>
    have hopening := cr_not_mem_openingText htag hnames
    cases text with
    | nil =>
      simp only [Element.unified, Element.renderAt, Text.unifyLines, List.append_assoc]
      rw [Text.unifyLines_append hopening, Text.unifyLines_append hempty]
    | cons c text =>
      obtain ⟨d, s, hunified⟩ := exists_unifyLines_cons c text
      have hwritten : (Element.leaf tag attributes (c :: text)).renderAt level ++ rest =
          openingText tag attributes ++ (['>'] ++ ((c :: text).flatMap escapeText ++
            '<' :: ('/' :: tag ++ ['>'] ++ rest))) := by
        simp [Element.renderAt, closingText]
      have hclosing : '\r' ∉ '/' :: tag ++ ['>'] := by simp [cr_not_mem_of_isName htag]
      rw [hwritten, Text.unifyLines_append hopening, Text.unifyLines_append (by decide),
        unifyLines_flatMap_escapeText, Text.unifyLines_append hclosing, Element.unified, hunified]
      simp [Element.renderAt, closingText]
  | @branch tag attributes children htag hnames _ ih =>
    have hopening := cr_not_mem_openingText htag hnames
    cases children with
    | nil =>
      simp only [Element.unified, unifiedAll, Element.renderAt, List.append_assoc]
      rw [Text.unifyLines_append hopening, Text.unifyLines_append hempty]
    | cons child children =>
      obtain ⟨hchild, hchildren⟩ := List.forall_mem_cons.mp ih
      have hline : '\r' ∉ '>' :: newLine (level + 1) := by simp [cr_not_mem_newLine]
      simp only [Element.unified, unifiedAll, Element.renderAt, List.append_assoc]
      rw [Text.unifyLines_append hopening, Text.unifyLines_append hline, hchild,
        unifyLines_renderRest fun e he => hchildren e he (level + 1),
        Text.unifyLines_append (cr_not_mem_newLine level),
        Text.unifyLines_append (cr_not_mem_closingText htag)]

/-- Other line ends leave names what they are. -/
theorem Readable.unified {e : Element} (h : Readable e) : Readable e.unified := by
  induction h with
  | leaf htag hnames => exact .leaf htag hnames
  | @branch tag attributes children htag hnames hall ih =>
    refine .branch htag hnames ?_
    clear hall
    induction children with
    | nil => exact List.forall_mem_nil _
    | cons child children ih' =>
      obtain ⟨hchild, hchildren⟩ := List.forall_mem_cons.mp ih
      exact List.forall_mem_cons.mpr ⟨hchild, ih' hchildren⟩

/-! ### Documents are read back -/

theorem allowed_document {e : Element} (h : Readable e) : Allowed (document e) ↔ Allowed e.content := by
  have hdeclaration : Allowed "<?xml version='1.0' encoding='utf-8'?>\n".toList := by
    decide +kernel
  have hend : Allowed ['\n'] := by decide
  unfold document
  rw [allowed_append, allowed_append, h.allowed_renderAt]
  exact ⟨fun hall => hall.1.2, fun hcontent => ⟨⟨hdeclaration, hcontent⟩, hend⟩⟩

/-- What stands between the declaration and the end of a document is read. -/
theorem read_of_unifyLines {e : Element} (h : Readable e) {t : Text} (ht : Allowed t)
    (hunified : Text.unifyLines t = document e) : read t = some (e.node 0) := by
  have hbody : body? (document e) = some ('\n' :: (e.renderAt 0 ++ (['\n'] ++ []))) := by
    have hcut : Text.cut? "?>" (document e) =
        some ("<?xml version='1.0' encoding='utf-8'".toList, '\n' :: (e.renderAt 0 ++ ['\n'])) := rfl
    have hstarts : (document e).startsWith "<?xml " = true := rfl
    rw [body?, hstarts, if_pos rfl, hcut]
    rfl
  have hblank : (('\n' :: (e.renderAt 0 ++ (['\n'] ++ []))).takeWhile (· ≠ '<')).all isSpace =
      true := by
    obtain ⟨t, ht⟩ : ∃ t, e.renderAt 0 ++ (['\n'] ++ []) = '<' :: t := by
      obtain ⟨c, t, hct⟩ : ∃ c t, e.renderAt 0 ++ (['\n'] ++ []) = c :: t :=
        List.exists_cons_of_ne_nil (by simp)
      have hc := stops_renderAt e 0 (['\n'] ++ [])
      rw [hct] at hc
      exact ⟨t, hct.trans (by rw [hc c rfl])⟩
    rw [ht]
    rfl
  have hpieces : bracketed ('\n' :: (e.renderAt 0 ++ (['\n'] ++ []))) =
      bracketed (e.renderAt 0 ++ (['\n'] ++ [])) := by
    rw [bracketed, Text.pieces_cons_of_ne (by decide), List.tail_modifyHead, bracketed]
  have hbuild := h.readsBack 0 [] [] ['\n'] [] (by decide) (by rintro c ⟨⟩)
  rw [read, if_pos (List.all_eq_true.mpr ht), hunified, hbody]
  simp only [Option.bind_eq_bind, Option.bind_some, hblank, if_true, hpieces, hbuild]
  rfl

/-- No document with a character that is not allowed is read. -/
theorem read_of_not_allowed {t : Text} (h : ¬ Allowed t) : read t = none := by
  rw [read, if_neg fun hall => h (List.all_eq_true.mp hall)]

/-- **A document whose elements carry nothing that is not allowed is read** as the tree that it was
written from, with the line ends of its texts unified. -/
theorem read_document {e : Element} (h : Readable e) (hcontent : Allowed e.content) :
    read (document e) = some (e.unified.node 0) := by
  have hdeclaration : '\r' ∉ "<?xml version='1.0' encoding='utf-8'?>\n".toList := by
    decide +kernel
  have hunified : Text.unifyLines (document e) = document e.unified := by
    unfold document
    rw [List.append_assoc, Text.unifyLines_append hdeclaration, h.unifyLines_renderAt, List.append_assoc]
    rfl
  exact read_of_unifyLines h.unified ((allowed_document h).mpr hcontent) hunified

end IncludeTrace.Xml
