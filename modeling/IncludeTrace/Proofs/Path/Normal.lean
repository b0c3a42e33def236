import IncludeTrace.Path.Basic
import Mathlib.Tactic.Common

/-!
# Normal forms and changed characters

Paths are cut into pieces at their slashes, and normal form settles the pieces: it drops empty ones and
`.`, and lets `..` take back the piece before it. This module says what happens if characters of a path
become slashes. That may be done before or after the path is brought into normal form, to the same end
(`Path.normal_map_normal`), as long as no `..` takes back a piece that would have fallen into several.

The reason is that pieces may be expanded into several before or after they are settled
(`Path.settle_flatMap`). One step of this is `Path.settle_expand_addSegment`. And pieces may be settled
on their own before they are added behind others (`Path.foldl_settle`). If no character changes at all,
this says that a normal form is its own (`Path.normal_normal`).
-/

namespace IncludeTrace

namespace Text

variable {separator c : Char} {t p : Text} {ts : List Text}

/-! ### Pieces -/

theorem pieces_eq_splitOn (separator : Char) (t : Text) :
    pieces separator t = t.splitOn separator := by
  induction t with
  | nil => rfl
  | cons c t ih =>
    obtain ⟨q, qs, hq⟩ := List.exists_cons_of_ne_nil (List.splitOn_ne_nil separator t)
    rw [List.splitOn_cons_eq_if_modifyHead, pieces, ih, hq]
    simp only [beq_iff_eq, List.modifyHead_cons]

theorem pieces_ne_nil (separator : Char) (t : Text) : pieces separator t ≠ [] := by
  rw [pieces_eq_splitOn]
  exact List.splitOn_ne_nil separator t

@[simp]
theorem pieces_cons_self (separator : Char) (t : Text) :
    pieces separator (separator :: t) = [] :: pieces separator t := by
  rw [pieces, if_pos rfl]

theorem pieces_cons_of_ne (h : c ≠ separator) (t : Text) :
    pieces separator (c :: t) = (pieces separator t).modifyHead (c :: ·) := by
  rw [pieces_eq_splitOn, pieces_eq_splitOn, List.splitOn_cons_eq_if_modifyHead,
    if_neg (by simpa using h)]

theorem pieces_of_not_mem (h : separator ∉ t) : pieces separator t = [t] := by
  rw [pieces_eq_splitOn, List.splitOn_eq_singleton h]

/-- A separator between two texts separates their pieces. -/
theorem pieces_append_cons (t s : Text) :
    pieces separator (t ++ separator :: s) = pieces separator t ++ pieces separator s := by
  simp only [pieces_eq_splitOn, List.splitOn_append_cons_self]

/-- **Splitting undoes joining** texts without separators. -/
theorem pieces_join (hne : ts ≠ []) (h : ∀ t ∈ ts, separator ∉ t) :
    pieces separator (join [separator] ts) = ts := by
  rw [pieces_eq_splitOn, join, List.splitOn_intercalate separator h hne]

/-- **Joining undoes splitting.** -/
theorem join_pieces (separator : Char) (t : Text) : join [separator] (pieces separator t) = t := by
  rw [pieces_eq_splitOn, join, List.intercalate_splitOn]

theorem join_cons_of_ne_nil (hne : ts ≠ []) (separator t : Text) :
    join separator (t :: ts) = t ++ separator ++ join separator ts :=
  List.intercalate_cons_of_ne_nil hne

/-- The characters of a join are those of the texts, and the separator. -/
theorem mem_join (h : c ∈ join [separator] ts) : c = separator ∨ ∃ t ∈ ts, c ∈ t := by
  induction ts with
  | nil => simp [join] at h
  | cons t ts ih =>
    by_cases hne : ts = []
    · subst hne
      rw [join, List.intercalate_singleton] at h
      exact .inr ⟨t, List.mem_cons_self, h⟩
    · rw [join_cons_of_ne_nil hne, List.mem_append, List.mem_append, List.mem_singleton] at h
      rcases h with (h | h) | h
      · exact .inr ⟨t, List.mem_cons_self, h⟩
      · exact .inl h
      · obtain h | ⟨s, hs, hc⟩ := ih h
        · exact .inl h
        · exact .inr ⟨s, List.mem_cons_of_mem t hs, hc⟩

/-- No piece holds a separator, and the characters of a piece come from the text. -/
theorem of_mem_pieces (h : p ∈ pieces separator t) : separator ∉ p ∧ ∀ c ∈ p, c ∈ t := by
  induction t generalizing p with
  | nil =>
    obtain rfl := List.mem_singleton.mp h
    exact ⟨List.not_mem_nil, fun _ hc => hc⟩
  | cons c t ih =>
    have hlater : ∀ {q}, q ∈ pieces separator t → separator ∉ q ∧ ∀ d ∈ q, d ∈ c :: t :=
      fun hq => ⟨(ih hq).1, fun d hd => List.mem_cons_of_mem c ((ih hq).2 d hd)⟩
    by_cases hc : c = separator
    · subst hc
      rw [pieces_cons_self, List.mem_cons] at h
      rcases h with rfl | h
      · simp
      · exact hlater h
    · obtain ⟨q, qs, hq⟩ := List.exists_cons_of_ne_nil (pieces_ne_nil separator t)
      rw [pieces_cons_of_ne hc, hq, List.modifyHead_cons, List.mem_cons] at h
      rcases h with rfl | h
      · obtain ⟨hseparator, hchars⟩ := hlater (hq ▸ List.mem_cons_self)
        refine ⟨fun hmem => ?_, ?_⟩
        · rcases List.mem_cons.mp hmem with e | e
          · exact hc e.symm
          · exact hseparator e
        · exact List.forall_mem_cons.mpr ⟨List.mem_cons_self, hchars⟩
      · exact hlater (hq ▸ List.mem_cons_of_mem q h)

/-- A text whose characters are changed one by one, separators excepted, has the pieces of its
changed pieces. -/
theorem pieces_map (f : Char → Char) (hf : f separator = separator) (t : Text) :
    pieces separator (t.map f) =
      (pieces separator t).flatMap fun w => pieces separator (w.map f) := by
  induction t with
  | nil => rfl
  | cons c t ih =>
    by_cases hc : c = separator
    · rw [hc, List.map_cons, hf, pieces_cons_self, pieces_cons_self, ih, List.flatMap_cons]
      rfl
    · obtain ⟨q, qs, hq⟩ := List.exists_cons_of_ne_nil (pieces_ne_nil separator t)
      rw [hq, List.flatMap_cons] at ih
      rw [pieces_cons_of_ne hc, hq, List.modifyHead_cons, List.flatMap_cons, List.map_cons,
        List.map_cons]
      -- a character that becomes a separator cuts off an empty piece in front of its own
      by_cases hfc : f c = separator
      · rw [hfc, pieces_cons_self, pieces_cons_self, ih, List.cons_append]
      · obtain ⟨r, rs, hr⟩ := List.exists_cons_of_ne_nil (pieces_ne_nil separator (q.map f))
        rw [pieces_cons_of_ne hfc, pieces_cons_of_ne hfc, ih, hr]
        rfl

/-- Texts that are not empty are joined to one that begins as the first of them. -/
theorem head?_join (separator : Text) (h : ∀ t ∈ ts, t ≠ []) :
    (join separator ts).head? = ts.head?.bind List.head? := by
  cases ts with
  | nil => rfl
  | cons t ts =>
    obtain ⟨c, t, rfl⟩ := List.exists_cons_of_ne_nil (h t List.mem_cons_self)
    by_cases hne : ts = []
    · subst hne
      rw [join, List.intercalate_singleton]
      rfl
    · rw [join_cons_of_ne_nil hne]
      rfl

/-- The first character is the first one of a piece, unless it is a separator. -/
theorem exists_piece_of_ne (h : c ≠ separator) (t : Text) :
    ∃ w ∈ pieces separator (c :: t), w.head? = some c := by
  obtain ⟨q, qs, hq⟩ := List.exists_cons_of_ne_nil (pieces_ne_nil separator t)
  rw [pieces_cons_of_ne h, hq]
  exact ⟨c :: q, List.mem_cons_self, rfl⟩

end Text

namespace Path

variable {rooted : Bool} {expand : Text → List Text} {kept ws : List Text} {p : Text}

/-! ### Keeping segments -/

/-- A segment that stays when it is added: neither empty nor one of the two with a meaning. -/
def IsName (w : Text) : Prop := w ≠ [] ∧ w ≠ ['.'] ∧ w ≠ ['.', '.']

instance : DecidablePred IsName :=
  fun w => inferInstanceAs (Decidable (w ≠ [] ∧ w ≠ ['.'] ∧ w ≠ ['.', '.']))

theorem not_isName_iff {w : Text} : ¬ IsName w ↔ w = [] ∨ w = ['.'] ∨ w = ['.', '.'] := by
  simp only [IsName, not_and_or, not_not]

theorem addSegment_of_isName {w : Text} (h : IsName w) (kept : List Text) :
    addSegment rooted kept w = w :: kept := by
  obtain ⟨h₁, h₂, h₃⟩ := h
  simp only [addSegment, h₁, h₂, h₃, or_self, if_false]

/-- The empty segment and `.` are dropped. -/
theorem addSegment_of_here {w : Text} (h : w = [] ∨ w = ['.']) (kept : List Text) :
    addSegment rooted kept w = kept := by
  rw [addSegment.eq_def, if_pos h]

/-- `..` takes back a name; where there is none it is dropped or kept. -/
theorem addSegment_back (rooted : Bool) (kept : List Text) :
    addSegment rooted kept ['.', '.'] =
      match kept with
      | [] => if rooted then [] else [['.', '.']]
      | last :: rest => if last = ['.', '.'] then ['.', '.'] :: last :: rest else rest := by
  cases kept <;> simp [addSegment]

/-- Segments are **settled** if none of them is dropped when it is added: what is kept consists of
names and of `..`. -/
def Settled (kept : List Text) : Prop := ∀ w ∈ kept, w ≠ [] ∧ w ≠ ['.']

/-- Nothing is kept but what was kept before and the segment. -/
theorem addSegment_sublist (rooted : Bool) (kept : List Text) (w : Text) :
    (addSegment rooted kept w).Sublist (w :: kept) := by
  rw [addSegment.eq_def]
  split
  · exact List.sublist_cons_self w kept
  · split
    · split
      · split
        · exact List.nil_sublist _
        · exact .refl _
      · next last rest =>
        split
        · exact .refl _
        · exact (List.sublist_cons_self last rest).trans (List.sublist_cons_self w _)
    · exact .refl _

theorem settled_addSegment (h : Settled kept) (w : Text) : Settled (addSegment rooted kept w) := by
  by_cases hhere : w = [] ∨ w = ['.']
  · rw [addSegment_of_here hhere]
    exact h
  · intro v hv
    rcases List.mem_cons.mp ((addSegment_sublist rooted kept w).subset hv) with rfl | hv
    · exact not_or.mp hhere
    · exact h v hv

/-- What is kept, innermost first, when segments are added one after another. -/
def settle (rooted : Bool) (ws : List Text) : List Text := ws.foldl (addSegment rooted) []

/-- The segments that a `..` takes back, or finds where it is kept, when segments are added to those
kept so far. -/
def takenBack (rooted : Bool) : List Text → List Text → List Text
  | _, [] => []
  | kept, w :: ws =>
    (if w = ['.', '.'] then kept.take 1 else []) ++ takenBack rooted (addSegment rooted kept w) ws

/-- What is taken back stood in front of a `..`. -/
theorem of_mem_takenBack {P : Text → Prop}
    (h : (kept.reverse ++ ws).Pairwise fun v w => w = ['.', '.'] → P v) :
    ∀ v ∈ takenBack rooted kept ws, P v := by
  induction ws generalizing kept with
  | nil => exact List.forall_mem_nil _
  | cons w ws ih =>
    have hsublist : ((addSegment rooted kept w).reverse ++ ws).Sublist (kept.reverse ++ w :: ws) := by
      have hreverse := (addSegment_sublist rooted kept w).reverse.append_right ws
      rwa [List.reverse_cons, List.append_assoc] at hreverse
    refine List.forall_mem_append.mpr ⟨fun v hv => ?_, ih (h.sublist hsublist)⟩
    split at hv
    · next hdots =>
      have hkept := List.mem_reverse.mpr (List.mem_of_mem_take hv)
      exact (List.pairwise_append.mp h).2.2 v hkept w List.mem_cons_self hdots
    · cases hv

theorem takenBack_subset : takenBack rooted kept ws ⊆ kept ++ ws := by
  induction ws generalizing kept with
  | nil => exact List.nil_subset _
  | cons w ws ih =>
    intro v hv
    rw [takenBack, List.mem_append] at hv
    rcases hv with hv | hv
    · split at hv
      · exact List.mem_append_left _ (List.mem_of_mem_take hv)
      · cases hv
    · rcases List.mem_append.mp (ih hv) with hv | hv
      · have hmem := (addSegment_sublist rooted kept w).subset hv
        simp only [List.mem_cons, List.mem_append] at hmem ⊢
        tauto
      · simp [hv]

/-- One segment may be expanded before or after it is added to the others. -/
theorem settle_expand_addSegment (hfixed : ∀ w, ¬ IsName w → expand w = [w])
    (hkept : Settled kept) {w : Text} (hback : w = ['.', '.'] → ∀ v ∈ kept.take 1, expand v = [v]) :
    (expand w).foldl (addSegment rooted) (settle rooted (kept.reverse.flatMap expand)) =
      settle rooted ((addSegment rooted kept w).reverse.flatMap expand) := by
  have hpush : (expand w).foldl (addSegment rooted) (settle rooted (kept.reverse.flatMap expand)) =
      settle rooted ((w :: kept).reverse.flatMap expand) := by
    rw [settle, settle, List.reverse_cons, List.flatMap_append, List.foldl_append,
      List.flatMap_singleton]
  by_cases hhere : w = [] ∨ w = ['.']
  · have hw : expand w = [w] := hfixed w fun hname => hhere.elim hname.1 hname.2.1
    rw [addSegment_of_here hhere, hw, List.foldl_cons, List.foldl_nil, addSegment_of_here hhere]
  · by_cases hw : w = ['.', '.']
    · -- whatever is taken back was not expanded, so it is taken back on both sides
      subst hw
      have hdots : expand ['.', '.'] = [['.', '.']] := hfixed _ fun hname => hname.2.2 rfl
      rw [addSegment_back]
      cases kept with
      | nil => cases rooted <;> simp [settle, hdots, addSegment_back]
      | cons last rest =>
        by_cases hlast : last = ['.', '.']
        · subst hlast
          exact hpush
        · have hname : IsName last :=
            ⟨(hkept last List.mem_cons_self).1, (hkept last List.mem_cons_self).2, hlast⟩
          have hlast' : settle rooted ((last :: rest).reverse.flatMap expand) =
              last :: settle rooted (rest.reverse.flatMap expand) := by
            rw [settle, List.reverse_cons, List.flatMap_append, List.flatMap_singleton,
              hback rfl last (by simp), List.foldl_append, List.foldl_cons, List.foldl_nil,
              addSegment_of_isName hname, settle]
          simp only [hlast', hdots, List.foldl_cons, List.foldl_nil, addSegment_back, if_neg hlast]
    · rw [not_or] at hhere
      rw [addSegment_of_isName ⟨hhere.1, hhere.2, hw⟩]
      exact hpush

/-- **Segments may be expanded before or after they are settled**, if neither the empty segment nor
`.` nor `..` is expanded, and no segment that is taken back. -/
theorem settle_flatMap (hfixed : ∀ w, ¬ IsName w → expand w = [w])
    (hback : ∀ v ∈ takenBack rooted [] ws, expand v = [v]) :
    settle rooted (ws.flatMap expand) =
      settle rooted ((settle rooted ws).reverse.flatMap expand) := by
  have hrun : ∀ kept : List Text, Settled kept → (∀ v ∈ takenBack rooted kept ws, expand v = [v]) →
      (ws.flatMap expand).foldl (addSegment rooted) (settle rooted (kept.reverse.flatMap expand)) =
        settle rooted ((ws.foldl (addSegment rooted) kept).reverse.flatMap expand) := by
    clear hback
    -- what a `..` takes back may have been kept long before, so the segments kept so far are arbitrary
    induction ws with
    | nil => exact fun kept _ _ => rfl
    | cons w ws ih =>
      intro kept hkept hback
      obtain ⟨hw, hrest⟩ := List.forall_mem_append.mp hback
      have hfirst : w = ['.', '.'] → ∀ v ∈ kept.take 1, expand v = [v] := fun hdots => by
        rwa [if_pos hdots] at hw
      rw [List.flatMap_cons, List.foldl_append, settle_expand_addSegment hfixed hkept hfirst,
        List.foldl_cons]
      exact ih _ (settled_addSegment hkept w) hrest
  exact hrun [] (by simp [Settled]) hback

/-- One segment may be added to settled ones before all of them are added to others. -/
theorem foldl_addSegment_reverse (hkept : Settled kept) (w : Text) (before : List Text) :
    (kept.reverse ++ [w]).foldl (addSegment rooted) before =
      (addSegment false kept w).reverse.foldl (addSegment rooted) before := by
  by_cases hhere : w = [] ∨ w = ['.']
  · rw [addSegment_of_here hhere, List.foldl_append, List.foldl_cons, List.foldl_nil,
      addSegment_of_here hhere]
  · by_cases hw : w = ['.', '.']
    · subst hw
      rw [addSegment_back]
      cases kept with
      | nil => rfl
      | cons last rest =>
        by_cases hlast : last = ['.', '.']
        · simp only [if_pos hlast, List.reverse_cons]
        · have hname : IsName last :=
            ⟨(hkept last List.mem_cons_self).1, (hkept last List.mem_cons_self).2, hlast⟩
          simp only [if_neg hlast, List.reverse_cons, List.foldl_append, List.foldl_cons,
            List.foldl_nil, addSegment_of_isName hname, addSegment_back]
    · rw [not_or] at hhere
      rw [addSegment_of_isName ⟨hhere.1, hhere.2, hw⟩, List.reverse_cons]

/-- **Segments may be settled on their own before they are added to others.** -/
theorem foldl_settle (rooted : Bool) (before ws : List Text) :
    ws.foldl (addSegment rooted) before =
      (settle false ws).reverse.foldl (addSegment rooted) before := by
  have hrun : ∀ kept : List Text, Settled kept →
      (kept.reverse ++ ws).foldl (addSegment rooted) before =
        (ws.foldl (addSegment false) kept).reverse.foldl (addSegment rooted) before := by
    induction ws with
    | nil => simp
    | cons w ws ih =>
      intro kept hkept
      rw [List.append_cons, List.foldl_append, foldl_addSegment_reverse hkept, ← List.foldl_append,
        ih _ (settled_addSegment hkept w), List.foldl_cons]
  exact hrun [] (by simp [Settled])

/-! ### Segments and roots of paths -/

theorem segments_eq (p : Text) :
    segments p = (settle (!(root p).isEmpty) (p.pieces '/')).reverse := rfl

theorem of_mem_settle (rooted : Bool) (ws : List Text) :
    Settled (settle rooted ws) ∧ settle rooted ws ⊆ ws := by
  have hrun : ∀ kept, Settled kept → Settled (ws.foldl (addSegment rooted) kept) ∧
      ws.foldl (addSegment rooted) kept ⊆ kept ++ ws := by
    induction ws with
    | nil => exact fun kept hkept => ⟨hkept, by simp⟩
    | cons w ws ih =>
      intro kept hkept
      obtain ⟨hsettled, hsubset⟩ := ih _ (settled_addSegment hkept w)
      refine ⟨hsettled, fun v hv => ?_⟩
      rcases List.mem_append.mp (hsubset hv) with hv | hv
      · have hmem := (addSegment_sublist rooted kept w).subset hv
        simp only [List.mem_cons, List.mem_append] at hmem ⊢
        tauto
      · simp [hv]
  exact hrun [] (by simp [Settled])

/-- A segment of a path is one of its pieces, and not one of those that are dropped. -/
theorem of_mem_segments {w : Text} (h : w ∈ segments p) :
    w ∈ p.pieces '/' ∧ w ≠ [] ∧ w ≠ ['.'] := by
  rw [segments_eq, List.mem_reverse] at h
  obtain ⟨hsettled, hsubset⟩ := of_mem_settle (!(root p).isEmpty) (p.pieces '/')
  exact ⟨hsubset h, hsettled w h⟩

theorem root_of_startsWith (h : p.startsWith ['/'] = true) :
    root p = ['/'] ∨ root p = ['/', '/'] := by
  obtain ⟨t, rfl⟩ := List.isPrefixOf_iff_prefix.mp h
  rw [List.singleton_append, root.eq_def]
  split <;> simp_all

theorem root_eq_nil_iff : root p = [] ↔ p.startsWith ['/'] = false := by
  constructor
  · intro h
    rw [Bool.eq_false_iff]
    intro hstarts
    rcases root_of_startsWith hstarts with hr | hr <;> simp [hr] at h
  · intro h
    rw [root.eq_def]
    split <;> first | rfl | cases h

theorem root_eq (p : Text) : root p =
    if p.startsWith ['/', '/', '/'] then ['/']
    else if p.startsWith ['/', '/'] then ['/', '/']
    else if p.startsWith ['/'] then ['/'] else [] := by
  have hslash : ∀ c : Char, ('/' == c) = decide (c = '/') := fun c => by
    simp only [beq_eq_decide, eq_comm]
  rcases p with _ | ⟨a, _ | ⟨b, _ | ⟨c, p⟩⟩⟩
  · rfl
  · by_cases ha : a = '/' <;> simp [root, Text.startsWith, List.isPrefixOf, hslash, ha]
  · by_cases ha : a = '/' <;> by_cases hb : b = '/' <;>
      simp [root, Text.startsWith, List.isPrefixOf, hslash, ha, hb]
  · by_cases ha : a = '/' <;> by_cases hb : b = '/' <;> by_cases hc : c = '/' <;>
      simp [root, Text.startsWith, List.isPrefixOf, hslash, ha, hb, hc]

theorem root_cases (p : Text) : root p = [] ∨ root p = ['/'] ∨ root p = ['/', '/'] := by
  rw [root.eq_def]
  split <;> simp

/-- A root with anything behind it that does not begin with a slash. -/
theorem root_append {r t : Text} (hr : r = [] ∨ r = ['/'] ∨ r = ['/', '/'])
    (ht : t.head? ≠ some '/') : root (r ++ t) = r := by
  cases t with
  | nil => rcases hr with rfl | rfl | rfl <;> rfl
  | cons c t =>
    have hc : c ≠ '/' := fun e => ht (congrArg some e)
    rcases hr with rfl | rfl | rfl <;> simp [root, hc]

/-- A root with segments behind it. -/
theorem root_append_join {r : Text} (hr : r = [] ∨ r = ['/'] ∨ r = ['/', '/'])
    (hws : ∀ w ∈ ws, w ≠ [] ∧ '/' ∉ w) : root (r ++ Text.join ['/'] ws) = r := by
  refine root_append hr ?_
  rw [Text.head?_join _ fun w hw => (hws w hw).1]
  cases ws with
  | nil => simp
  | cons w ws => exact fun e => (hws w List.mem_cons_self).2 (List.mem_of_head? e)

/-- Normal form depends on the root and on what the pieces settle to. -/
theorem normal_congr {q : Text} (hroot : root p = root q)
    (hsettle : settle (!(root q).isEmpty) (p.pieces '/') =
      settle (!(root q).isEmpty) (q.pieces '/')) : normal p = normal q := by
  rw [normal, normal, segments_eq p, segments_eq q, hroot, hsettle]

theorem normal_of_root (h : root p ≠ []) : normal p = root p ++ Text.join ['/'] (segments p) := by
  rw [normal]
  simp [h]

/-- A normal form is a root with segments behind it: those of the path, or a single `.`. -/
theorem exists_normal (p : Text) : ∃ here, normal p = root p ++ Text.join ['/'] (here ++ segments p) ∧
    (∀ w ∈ here, w = ['.']) ∧ ∀ w ∈ here ++ segments p, w ≠ [] ∧ '/' ∉ w := by
  have hsegments : ∀ w ∈ segments p, w ≠ [] ∧ '/' ∉ w := fun w hw =>
    ⟨(of_mem_segments hw).2.1, (Text.of_mem_pieces (of_mem_segments hw).1).1⟩
  simp only [normal]
  split
  · next hempty =>
    obtain ⟨hr, hjoin⟩ := List.append_eq_nil_iff.mp (List.isEmpty_iff.mp hempty)
    have hnone : segments p = [] := by
      cases hs : segments p with
      | nil => rfl
      | cons w ws =>
        have hhead := Text.head?_join ['/'] fun v hv => (hsegments v hv).1
        rw [hjoin, hs] at hhead
        exact absurd (List.head?_eq_none_iff.mp hhead.symm) (hsegments w (hs ▸ List.mem_cons_self)).1
    exact ⟨[['.']], by rw [hr, hnone]; rfl, by simp, by simp [hnone]⟩
  · exact ⟨[], rfl, List.forall_mem_nil _, hsegments⟩

/-- Normal form keeps the root. -/
theorem root_normal (p : Text) : root (normal p) = root p := by
  obtain ⟨here, hwhole, -, hsegments⟩ := exists_normal p
  rw [hwhole, root_append_join (root_cases p) hsegments]

theorem startsWith_normal (h : p.startsWith ['/'] = true) :
    (normal p).startsWith ['/'] = true := by
  rcases root_of_startsWith h with hr | hr
  · rw [normal_of_root (by simp [hr]), hr]
    rfl
  · rw [normal_of_root (by simp [hr]), hr]
    rfl

/-- The pieces of a root with segments behind it are these, behind some that are empty. -/
theorem exists_pieces_append_join {r : Text} (hr : r = [] ∨ r = ['/'] ∨ r = ['/', '/'])
    (hws : ∀ w ∈ ws, '/' ∉ w) : ∃ before,
      (r ++ Text.join ['/'] ws).pieces '/' = before ++ ws ∧ ∀ w ∈ before, w = [] := by
  have hjoin : ∃ before, (Text.join ['/'] ws).pieces '/' = before ++ ws ∧ ∀ w ∈ before, w = [] := by
    by_cases hne : ws = []
    · subst hne
      exact ⟨[[]], rfl, by simp⟩
    · exact ⟨[], Text.pieces_join hne hws, by simp⟩
  obtain ⟨before, hbefore, hblank⟩ := hjoin
  rcases hr with rfl | rfl | rfl
  · exact ⟨before, hbefore, hblank⟩
  · refine ⟨[] :: before, ?_, List.forall_mem_cons.mpr ⟨rfl, hblank⟩⟩
    rw [List.singleton_append, Text.pieces_cons_self, hbefore, List.cons_append]
  · refine ⟨[] :: [] :: before, ?_,
      List.forall_mem_cons.mpr ⟨rfl, List.forall_mem_cons.mpr ⟨rfl, hblank⟩⟩⟩
    rw [List.cons_append, List.singleton_append, Text.pieces_cons_self, Text.pieces_cons_self,
      hbefore, List.cons_append, List.cons_append]

/-- The pieces of a normal form are the segments of the path, behind some that are dropped. -/
theorem exists_pieces_normal (p : Text) : ∃ ws, (normal p).pieces '/' = ws ++ segments p ∧
    ∀ w ∈ ws, w = [] ∨ w = ['.'] := by
  obtain ⟨here, hwhole, hhere, hsegments⟩ := exists_normal p
  obtain ⟨before, hpieces, hbefore⟩ :=
    exists_pieces_append_join (root_cases p) fun w hw => (hsegments w hw).2
  refine ⟨before ++ here, by rw [hwhole, hpieces, List.append_assoc], ?_⟩
  exact List.forall_mem_append.mpr ⟨fun w hw => .inl (hbefore w hw), fun w hw => .inr (hhere w hw)⟩

/-- Segments in front that are dropped do not count. -/
theorem foldl_append_of_here {before : List Text} (h : ∀ w ∈ before, w = [] ∨ w = ['.'])
    (ws : List Text) :
    (before ++ ws).foldl (addSegment rooted) kept = ws.foldl (addSegment rooted) kept := by
  induction before with
  | nil => rfl
  | cons w before ih =>
    obtain ⟨hw, hbefore⟩ := List.forall_mem_cons.mp h
    rw [List.cons_append, List.foldl_cons, addSegment_of_here hw, ih hbefore]

section Map

variable {f : Char → Char}

/-- If no piece begins with a character that becomes a slash, the root stays. -/
theorem root_map (hslash : f '/' = '/') (hp : p.startsWith ['/'] = true)
    (hhead : ∀ w ∈ p.pieces '/', ∀ c ∈ w.head?, f c ≠ '/') : root (p.map f) = root p := by
  have hfirst : ∀ c s, c ≠ '/' → (∀ w ∈ Text.pieces '/' (c :: s), ∀ d ∈ w.head?, f d ≠ '/') →
      f c ≠ '/' := by
    intro c s hc hpieces
    obtain ⟨w, hw, hwc⟩ := Text.exists_piece_of_ne hc s
    exact hpieces w hw c hwc
  obtain ⟨t, rfl⟩ := List.isPrefixOf_iff_prefix.mp hp
  rw [List.singleton_append] at hhead ⊢
  rw [Text.pieces_cons_self] at hhead
  obtain ⟨-, hhead⟩ := List.forall_mem_cons.mp hhead
  -- only the first three characters count
  rcases t with _ | ⟨c, s⟩
  · simp [root, hslash]
  · by_cases hc : c = '/'
    · subst hc
      rw [Text.pieces_cons_self] at hhead
      obtain ⟨-, hhead⟩ := List.forall_mem_cons.mp hhead
      rcases s with _ | ⟨d, s⟩
      · simp [root, hslash]
      · by_cases hd : d = '/'
        · simp [root, hslash, hd]
        · simp [root, hslash, hd, hfirst d s hd hhead]
    · simp [root, hslash, hc, hfirst c s hc hhead]

/-- The root stays in normal form as well. -/
theorem root_map_normal (hslash : f '/' = '/') (hp : p.startsWith ['/'] = true)
    (hhead : ∀ w ∈ p.pieces '/', ∀ c ∈ w.head?, f c ≠ '/') :
    root ((normal p).map f) = root p := by
  have hr := root_of_startsWith hp
  have hne : root p ≠ [] := by rcases hr with hr | hr <;> simp [hr]
  have hrmap : (root p).map f = root p := by rcases hr with hr | hr <;> simp [hr, hslash]
  rw [normal_of_root hne, List.map_append, hrmap]
  refine root_append (.inr hr) ?_
  rw [List.head?_map, Text.head?_join _ fun w hw => (of_mem_segments hw).2.1]
  cases hs : segments p with
  | nil => simp
  | cons w ws =>
    have hw := (of_mem_segments (hs ▸ List.mem_cons_self : w ∈ segments p)).1
    simpa using hhead w hw

/-- A segment with its characters changed, in pieces. -/
def mapPieces (f : Char → Char) (w : Text) : List Text := Text.pieces '/' (w.map f)

theorem mapPieces_of_not_isName (hdot : f '.' = '.') {w : Text} (h : ¬ IsName w) :
    mapPieces f w = [w] := by
  obtain rfl | rfl | rfl := not_isName_iff.mp h
  · rfl
  · simp [mapPieces, hdot, Text.pieces_of_not_mem]
  · simp [mapPieces, hdot, Text.pieces_of_not_mem]

theorem flatMap_mapPieces_of_here (hdot : f '.' = '.') (h : ∀ w ∈ ws, w = [] ∨ w = ['.']) :
    ws.flatMap (mapPieces f) = ws := by
  induction ws with
  | nil => rfl
  | cons w ws ih =>
    obtain ⟨hw, hws⟩ := List.forall_mem_cons.mp h
    have hfixed : mapPieces f w = [w] :=
      mapPieces_of_not_isName hdot fun hname => hw.elim hname.1 hname.2.1
    rw [List.flatMap_cons, hfixed, ih hws, List.singleton_append]

/-- The segments of a path may be settled before its characters are changed, if slashes and dots stay
what they are, and nothing changes in what is taken back. -/
theorem settle_map_normal (hslash : f '/' = '/') (hdot : f '.' = '.')
    (hback : ∀ v ∈ takenBack (!(root p).isEmpty) [] (p.pieces '/'), v.map f = v) :
    settle (!(root p).isEmpty) (Text.pieces '/' ((normal p).map f)) =
      settle (!(root p).isEmpty) (Text.pieces '/' (p.map f)) := by
  obtain ⟨ws, hws, hhere⟩ := exists_pieces_normal p
  have hexpand : ∀ v ∈ takenBack (!(root p).isEmpty) [] (p.pieces '/'), mapPieces f v = [v] := by
    intro v hv
    have hpiece : v ∈ p.pieces '/' := takenBack_subset hv
    rw [mapPieces, hback v hv, Text.pieces_of_not_mem (Text.of_mem_pieces hpiece).1]
  calc settle (!(root p).isEmpty) (Text.pieces '/' ((normal p).map f))
      = settle (!(root p).isEmpty) ((ws ++ segments p).flatMap (mapPieces f)) := by
        rw [Text.pieces_map f hslash, hws]
        rfl
    _ = settle (!(root p).isEmpty) ((segments p).flatMap (mapPieces f)) := by
        rw [List.flatMap_append, flatMap_mapPieces_of_here hdot hhere]
        exact foldl_append_of_here hhere _
    _ = settle (!(root p).isEmpty) ((p.pieces '/').flatMap (mapPieces f)) := by
        rw [segments_eq, settle_flatMap (fun _ => mapPieces_of_not_isName hdot) hexpand]
    _ = settle (!(root p).isEmpty) (Text.pieces '/' (p.map f)) := by
        rw [Text.pieces_map f hslash]
        rfl

/-- **A rooted path may be brought into normal form before its characters are changed**, if slashes
and dots stay what they are, no piece begins with a character that becomes a slash, and nothing
changes in what a later `..` could take back. -/
theorem normal_map_normal (hslash : f '/' = '/') (hdot : f '.' = '.')
    (hp : p.startsWith ['/'] = true) (hhead : ∀ w ∈ p.pieces '/', ∀ c ∈ w.head?, f c ≠ '/')
    (hback : (p.pieces '/').Pairwise fun v w => w = ['.', '.'] → v.map f = v) :
    normal ((normal p).map f) = normal (p.map f) := by
  have hroot := root_map_normal hslash hp hhead
  have hmap := root_map hslash hp hhead
  have hfront : ∀ v ∈ takenBack (!(root p).isEmpty) [] (p.pieces '/'), v.map f = v :=
    of_mem_takenBack hback
  have hsettle := settle_map_normal hslash hdot hfront
  refine normal_congr (hroot.trans hmap.symm) ?_
  rwa [hmap]

end Map

/-- What the pieces of a normal form settle to is what those of the path settle to. -/
theorem settle_pieces_normal (p : Text) : settle (!(root p).isEmpty) ((normal p).pieces '/') =
    settle (!(root p).isEmpty) (p.pieces '/') := by
  simpa using settle_map_normal (f := id) (p := p) rfl rfl fun v _ => List.map_id v

theorem segments_normal (p : Text) : segments (normal p) = segments p := by
  rw [segments_eq, segments_eq, root_normal, settle_pieces_normal]

/-- **A normal form is its own.** -/
theorem normal_normal (p : Text) : normal (normal p) = normal p :=
  normal_congr (root_normal p) (settle_pieces_normal p)

/-- Normal form brings in no character but slashes and dots. -/
theorem mem_normal {c : Char} (h : c ∈ normal p) : c = '/' ∨ c = '.' ∨ c ∈ p := by
  have hroot : c ∈ root p → c = '/' := by
    rw [root.eq_def]
    split <;> simp
  simp only [normal] at h
  split at h
  · exact .inr (.inl (List.mem_singleton.mp h))
  · rcases List.mem_append.mp h with h | h
    · exact .inl (hroot h)
    · obtain rfl | ⟨w, hw, hc⟩ := Text.mem_join h
      · exact .inl rfl
      · exact .inr (.inr ((Text.of_mem_pieces (of_mem_segments hw).1).2 c hc))

end Path

end IncludeTrace
