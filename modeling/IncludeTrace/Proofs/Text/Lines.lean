import IncludeTrace.Text.Lines
import Mathlib.Data.List.Infix

/-!
# Texts as lines with their ends

A text is written by putting lines one after another, each with a line end of its own choice; what stands
behind the last line end is a line too (`Text.written`). Every text is written from the lines that are read
from it (`Text.exists_written`). The converse is not true: a line that ends in a carriage return, with an
empty line behind it that ends in a line feed, is read as one line, because the two ends fuse.

How lines end does not matter for what they are: they stay the same if all ends are written as line feeds
(`Text.lines_unifyLines`).
-/

namespace IncludeTrace.Text

/-! ### Line ends -/

/-- A text without line ends: a single line. -/
def IsLine (t : Text) : Prop := '\r' ∉ t ∧ '\n' ∉ t

instance (t : Text) : Decidable (IsLine t) := inferInstanceAs (Decidable (_ ∧ _))

/-- The three line ends. -/
inductive LineEnd
  | lf
  | crlf
  | cr
  deriving DecidableEq

/-- A line end as it is written. -/
def LineEnd.text : LineEnd → Text
  | lf => ['\n']
  | crlf => ['\r', '\n']
  | cr => ['\r']

theorem lines_lf (t : Text) : lines ('\n' :: t) = [] :: lines t := by
  simp [lines]

theorem lines_crlf (t : Text) : lines ('\r' :: '\n' :: t) = [] :: lines t := by
  rw [lines]

/-- A carriage return ends a line, except that a line feed behind it belongs to the same end. -/
theorem lines_cr {t : Text} (h : t.head? ≠ some '\n') : lines ('\r' :: t) = [] :: lines t := by
  rw [lines]
  · simp
  · rintro t' - rfl
    simp at h

/-- A line in front of a text becomes part of the first line of the text. -/
theorem lines_append {l t first : Text} {rest : List Text} (hl : IsLine l)
    (ht : lines t = first :: rest) : lines (l ++ t) = (l ++ first) :: rest := by
  induction l with
  | nil => exact ht
  | cons c l ih =>
    obtain ⟨hr, hn⟩ := hl
    simp only [List.mem_cons, not_or] at hr hn
    rw [List.cons_append, lines, ih ⟨hr.2, hn.2⟩]
    · simp [Ne.symm hr.1, Ne.symm hn.1]
    · rintro t' rfl
      exact absurd rfl hr.1

theorem lines_of_isLine {l : Text} (h : IsLine l) : lines l = [l] := by
  simpa using lines_append (t := []) h rfl

/-- A text that is written line by line: each line of `body` with its end, then a last one without. -/
def written (body : List (Text × LineEnd)) (last : Text) : Text :=
  body.flatMap (fun line => line.1 ++ line.2.text) ++ last

/-- **Every text is written** from the lines that are read from it. -/
theorem exists_written (t : Text) : ∃ body last, written body last = t ∧
    body.map Prod.fst ++ [last] = t.lines ∧ ∀ l ∈ t.lines, IsLine l := by
  induction hn : t.length using Nat.strong_induction_on generalizing t with
  | _ n ih =>
    have hended : ∀ (e : LineEnd) (s : Text), t = e.text ++ s → t.lines = [] :: s.lines →
        s.length < n → ∃ body last, written body last = t ∧
          body.map Prod.fst ++ [last] = t.lines ∧ ∀ l ∈ t.lines, IsLine l := by
      intro e s ht hlines hlt
      obtain ⟨body, last, hs, hbody, hwhole⟩ := ih _ hlt s rfl
      refine ⟨([], e) :: body, last, ?_, ?_, ?_⟩
      · rw [ht, ← hs, written, List.flatMap_cons, List.nil_append, List.append_assoc, written]
      · rw [hlines, ← hbody]
        rfl
      · rw [hlines]
        exact List.forall_mem_cons.mpr ⟨by decide, hwhole⟩
    cases t with
    | nil => exact ⟨[], [], rfl, rfl, by decide⟩
    | cons c t =>
      rw [List.length_cons] at hn
      by_cases hfeed : c = '\n'
      · subst hfeed
        exact hended .lf t rfl (lines_lf t) (by omega)
      · by_cases hreturn : c = '\r'
        · subst hreturn
          by_cases hnext : t.head? = some '\n'
          · obtain ⟨s, rfl⟩ := List.head?_eq_some_iff.mp hnext
            rw [List.length_cons] at hn
            exact hended .crlf s rfl (lines_crlf s) (by omega)
          · exact hended .cr t rfl (lines_cr hnext) (by omega)
        · have hc : IsLine [c] := by simp [IsLine, Ne.symm hfeed, Ne.symm hreturn]
          obtain ⟨body, last, ht, hbody, hwhole⟩ := ih _ (by omega) t rfl
          have hne : lines t ≠ [] := by simp [← hbody]
          obtain ⟨first, rest, hlines⟩ := List.exists_cons_of_ne_nil hne
          have hlines' : lines (c :: t) = (c :: first) :: rest := lines_append hc hlines
          rw [hlines] at hbody hwhole
          obtain ⟨hfirst, hrest⟩ := List.forall_mem_cons.mp hwhole
          have hwhole' : ∀ l ∈ (c :: first) :: rest, IsLine l := by
            refine List.forall_mem_cons.mpr ⟨⟨?_, ?_⟩, hrest⟩
            · exact List.not_mem_cons_of_ne_of_not_mem (Ne.symm hreturn) hfirst.1
            · exact List.not_mem_cons_of_ne_of_not_mem (Ne.symm hfeed) hfirst.2
          rw [hlines']
          -- the character goes into the first line, and this may be the last one too
          cases body with
          | nil =>
            obtain ⟨rfl, rfl⟩ := List.cons.inj hbody
            exact ⟨[], c :: last, congrArg (c :: ·) ht, rfl, hwhole'⟩
          | cons line body =>
            obtain ⟨rfl, rfl⟩ := List.cons.inj hbody
            exact ⟨(c :: line.1, line.2) :: body, last, congrArg (c :: ·) ht, rfl, hwhole'⟩

/-! ### Line ends of whole texts -/

/-- Nothing changes in a text up to its first carriage return. -/
theorem unifyLines_append {s : Text} (h : '\r' ∉ s) (t : Text) :
    unifyLines (s ++ t) = s ++ unifyLines t := by
  induction s with
  | nil => rfl
  | cons c s ih =>
    rw [List.mem_cons, not_or] at h
    rw [List.cons_append, unifyLines, if_neg (Ne.symm h.1), ih h.2]
    · rfl
    · rintro t' rfl
      exact absurd rfl h.1

/-- A carriage return in front of anything but a line feed becomes one. -/
theorem unifyLines_cr {t : Text} (h : t.head? ≠ some '\n') :
    unifyLines ('\r' :: t) = '\n' :: unifyLines t := by
  rw [unifyLines, if_pos rfl]
  rintro t' - rfl
  exact h rfl

/-- The lines of a text do not depend on how they end. -/
@[simp]
theorem lines_unifyLines (t : Text) : lines (unifyLines t) = lines t := by
  fun_induction unifyLines t with
  | case1 => rfl
  | case2 t ih => rw [lines_lf, lines_crlf, ih]
  | case3 c t hcrlf ih =>
    by_cases hreturn : c = '\r'
    · subst hreturn
      have hnext : t.head? ≠ some '\n' := by
        intro hfeed
        obtain ⟨s, rfl⟩ := List.head?_eq_some_iff.mp hfeed
        exact hcrlf s rfl rfl
      rw [if_pos rfl, lines_lf, lines_cr hnext, ih]
    · rw [if_neg hreturn]
      by_cases hfeed : c = '\n'
      · subst hfeed
        rw [lines_lf, lines_lf, ih]
      · -- the character goes into the first line of what follows it
        have hc : IsLine [c] := by simp [IsLine, Ne.symm hreturn, Ne.symm hfeed]
        have hne : lines t ≠ [] := by
          obtain ⟨body, last, -, hlines, -⟩ := exists_written t
          simp [← hlines]
        obtain ⟨first, rest, hlines⟩ := List.exists_cons_of_ne_nil hne
        exact (lines_append hc (ih.trans hlines)).trans (lines_append hc hlines).symm

variable {body body' : List (Text × LineEnd)} {last last' : Text}

/-- Behind a text whose last line is empty the lines of another text follow. -/
theorem written_append : written body [] ++ written body' last' = written (body ++ body') last' := by
  simp [written]

/-- Behind a text and a line feed the lines of another text follow. -/
theorem written_append_lf : written body last ++ '\n' :: written body' last' =
    written (body ++ (last, .lf) :: body') last' := by
  simp [written, LineEnd.text]

/-- Where a text is empty or ends in a line end, its last line is empty. -/
theorem last_eq_nil (hlast : IsLine last) (h : (written body last).isEmpty = true ∨
    (written body last).endsWith ['\n'] = true ∨ (written body last).endsWith ['\r'] = true) :
    last = [] := by
  rcases List.eq_nil_or_concat last with rfl | ⟨l, c, rfl⟩
  · rfl
  · have hend : ∀ d, (written body (l.concat c)).endsWith [d] = true → d ∈ l.concat c := by
      intro d hd
      obtain ⟨t, ht⟩ := List.isSuffixOf_iff_suffix.mp hd
      rw [written, List.concat_eq_append, ← List.append_assoc] at ht
      obtain ⟨-, hdc⟩ := List.append_inj' ht rfl
      simp [List.cons.inj hdc]
    rcases h with h | h | h
    · simp [written] at h
    · exact absurd (hend _ h) hlast.2
    · exact absurd (hend _ h) hlast.1

end IncludeTrace.Text
