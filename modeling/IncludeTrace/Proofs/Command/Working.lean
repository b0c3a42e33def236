import IncludeTrace.Proofs.Command.Directives
import IncludeTrace.Proofs.Graph.Canonical
import IncludeTrace.Proofs.Path.Respelling

/-!
# Search directories as seen from the working directory

A relative directory is put behind the working directory of its command, and the whole is brought into
normal form as it is spelled. This is right if the path is faithful, that is, if normal form leaves its root
and its drive alone and no `..` takes back a piece with a backslash: what is found then is absolute and has
the key of the path (`Command.searchDirectories_from_working`).

A rooted path without backslashes is faithful. A path on a drive or a share that is spelled with backslashes
begins with a piece that has one, and it is faithful as soon as no such piece is taken back
(`Path.faithful_of_piece`). Where the piece with the drive is taken back, what is found is not absolute and
names something else (`Command.searchDirectories_leave_drive`).
-/

namespace IncludeTrace

namespace Path

variable {p u : Text} {ws : List Text}

/-! ### First pieces -/

/-- A segment that is not taken back stays where it is. -/
theorem exists_foldl_eq_concat (hback : u ∉ takenBack false [u] ws) :
    ∃ kept, ws.foldl (addSegment false) [u] = kept ++ [u] := by
  have hrun : ∀ kept, u ∉ takenBack false (kept ++ [u]) ws →
      ∃ kept', ws.foldl (addSegment false) (kept ++ [u]) = kept' ++ [u] := by
    clear hback
    induction ws with
    | nil => exact fun kept _ => ⟨kept, rfl⟩
    | cons w ws ih =>
      intro kept hback
      rw [takenBack, List.mem_append, not_or] at hback
      obtain ⟨kept', hstep⟩ : ∃ kept', addSegment false (kept ++ [u]) w = kept' ++ [u] := by
        by_cases hname : IsName w
        · exact ⟨w :: kept, addSegment_of_isName hname _⟩
        · obtain hw | hw | rfl := not_isName_iff.mp hname
          · exact ⟨kept, addSegment_of_here (.inl hw) _⟩
          · exact ⟨kept, addSegment_of_here (.inr hw) _⟩
          · rw [addSegment_back]
            cases kept with
            | nil => exact absurd List.mem_cons_self hback.1
            | cons last rest =>
              by_cases hlast : last = ['.', '.']
              · exact ⟨['.', '.'] :: last :: rest, if_pos hlast⟩
              · exact ⟨rest, if_neg hlast⟩
      rw [List.foldl_cons, hstep]
      exact ih kept' (hstep ▸ hback.2)
  exact hrun [] hback

/-- Joining puts the first text in front of a slash or of nothing. -/
theorem exists_join_eq_append (u : Text) (ws : List Text) :
    ∃ t, Text.join ['/'] (u :: ws) = u ++ t ∧ (t = [] ∨ t.head? = some '/') := by
  by_cases hne : ws = []
  · subst hne
    exact ⟨[], by rw [Text.join, List.intercalate_singleton, List.append_nil], .inl rfl⟩
  · refine ⟨'/' :: Text.join ['/'] ws, ?_, .inr rfl⟩
    rw [Text.join_cons_of_ne_nil hne, List.append_assoc, List.singleton_append]

/-- A path that begins with a piece that has a backslash does so in normal form, if no such piece is taken
back. -/
theorem exists_normal_eq_append (hpieces : p.pieces '/' = u :: ws) (hu : '\\' ∈ u)
    (hback : ∀ v ∈ takenBack (!(root p).isEmpty) [] (p.pieces '/'), '\\' ∉ v) :
    ∃ t, normal p = u ++ t ∧ (t = [] ∨ t.head? = some '/') := by
  have hname : IsName u := by
    refine ⟨?_, ?_, ?_⟩
    all_goals
      rintro rfl
      exact absurd hu (by decide)
  have hroot : root p = [] := by
    rw [root_eq_nil_iff, Bool.eq_false_iff]
    intro hstarts
    obtain ⟨t, rfl⟩ := List.isPrefixOf_iff_prefix.mp hstarts
    rw [List.singleton_append, Text.pieces_cons_self] at hpieces
    exact hname.1 (List.cons.inj hpieces).1.symm
  have hsettle : ∃ kept, settle false (p.pieces '/') = kept ++ [u] := by
    rw [hroot, hpieces, takenBack, if_neg hname.2.2, List.nil_append, addSegment_of_isName hname] at hback
    rw [hpieces, settle, List.foldl_cons, addSegment_of_isName hname]
    exact exists_foldl_eq_concat fun hmem => hback u hmem hu
  obtain ⟨kept, hkept⟩ := hsettle
  have hsegments : segments p = u :: kept.reverse := by
    rw [segments_eq, hroot]
    exact (congrArg List.reverse hkept).trans List.reverse_concat
  obtain ⟨t, ht, hslash⟩ := exists_join_eq_append u kept.reverse
  refine ⟨t, ?_, hslash⟩
  rw [normal, hroot, hsegments, List.nil_append, ht]
  simp [hname.1]

/-! ### Faithful paths -/

/-- **A path that begins with a piece of three characters or more and a backslash among the first of them is
faithful**, if no piece with a backslash is taken back. -/
theorem faithful_of_piece {a b c : Char} {t : Text} (hslash : '/' ∉ [a, b, c]) (hmem : '\\' ∈ [a, b, c])
    (hback : ∀ v ∈ takenBack (!(root (a :: b :: c :: t)).isEmpty) []
      (Text.pieces '/' (a :: b :: c :: t)), '\\' ∉ v) : Faithful (a :: b :: c :: t) := by
  simp only [List.mem_cons, List.not_mem_nil, or_false, not_or] at hslash
  obtain ⟨ha, hb, hc⟩ := hslash
  obtain ⟨q, qs, hq⟩ := List.exists_cons_of_ne_nil (Text.pieces_ne_nil '/' t)
  have hpieces : Text.pieces '/' (a :: b :: c :: t) = (a :: b :: c :: q) :: qs := by
    rw [Text.pieces_cons_of_ne (Ne.symm ha), Text.pieces_cons_of_ne (Ne.symm hb),
      Text.pieces_cons_of_ne (Ne.symm hc), hq]
    rfl
  have hfirst : '\\' ∈ [a, b, c] ++ q := List.mem_append_left q hmem
  obtain ⟨s, hs, -⟩ := exists_normal_eq_append hpieces hfirst hback
  -- root and drive depend on the first three characters only
  refine ⟨?_, ?_, hback⟩
  · rw [hs, root_eq, root_eq (slashed _)]
    simp [slashed, Text.startsWith]
  · have hdrive : ∀ a b c : Char, ∀ t t' : Text,
        hasDrive (a :: b :: c :: t) = hasDrive (a :: b :: c :: t') := by
      intro a b c t t'
      by_cases hb : b = ':' <;> by_cases hc : c = '/' <;> simp [hasDrive, hb, hc]
    rw [hs]
    exact hdrive _ _ _ _ _

/-- The normal form of a faithful path is absolute if the path is, unless a single backslash is all that is
left. -/
theorem Faithful.isAbsolute_normal (h : Faithful p) (hp : isAbsolute p = true) :
    isAbsolute (normal p) = true ∨ normal p = ['\\'] := by
  by_cases hrooted : p.startsWith ['/'] = true
  · exact .inl (isAbsolute_of_startsWith (startsWith_normal hrooted))
  rw [Bool.not_eq_true] at hrooted
  rw [isAbsolute, hrooted, Bool.false_or, isForeign, Bool.or_eq_true] at hp
  rcases hp with hdrive | hshare
  · exact .inl (isAbsolute_of_hasDrive (h.drive_eq.trans hdrive))
  -- the path begins with a backslash and another separator
  rcases p with _ | ⟨a, _ | ⟨b, t⟩⟩
  · cases hshare
  · simp [slashed, Text.startsWith] at hshare
  simp only [slashed, Text.startsWith, List.map_cons, List.isPrefixOf, Bool.and_true, Bool.and_eq_true,
    beq_iff_eq] at hrooted hshare
  have ha : a = '\\' := by
    by_contra hne
    rw [if_neg hne] at hshare
    simp [← hshare.1] at hrooted
  subst ha
  have hforeign : ∀ d r, d = '/' ∨ d = '\\' → isAbsolute ('\\' :: d :: r) = true := by
    rintro d r (rfl | rfl) <;> simp [isAbsolute, isForeign, slashed, Text.startsWith]
  obtain ⟨q, qs, hq⟩ := List.exists_cons_of_ne_nil (Text.pieces_ne_nil '/' t)
  by_cases hb : b = '/'
  · -- the backslash is a piece of its own, and it may be the only segment
    subst hb
    have hpieces : Text.pieces '/' ('\\' :: '/' :: t) = ['\\'] :: q :: qs := by
      rw [Text.pieces_cons_of_ne (by decide), Text.pieces_cons_self, hq]
      rfl
    obtain ⟨s, hs, rfl | hslash⟩ := exists_normal_eq_append hpieces List.mem_cons_self h.takenBack
    · exact .inr hs
    · obtain ⟨r, rfl⟩ := List.head?_eq_some_iff.mp hslash
      exact .inl (by rw [hs]; exact hforeign '/' r (.inl rfl))
  · have hback : b = '\\' := by
      by_contra hne
      rw [if_neg hne] at hshare
      exact hb hshare.2.symm
    subst hback
    have hpieces : Text.pieces '/' ('\\' :: '\\' :: t) = ('\\' :: '\\' :: q) :: qs := by
      rw [Text.pieces_cons_of_ne (by decide), Text.pieces_cons_of_ne (by decide), hq]
      rfl
    obtain ⟨s, hs, -⟩ := exists_normal_eq_append hpieces List.mem_cons_self h.takenBack
    exact .inl (by rw [hs]; exact hforeign '\\' (q ++ s) (.inr rfl))

/-! ### Places in a working directory -/

variable {working directory : Text}

/-- What is absolute stays so when something is put behind it. -/
theorem isAbsolute_append (h : isAbsolute p = true) (t : Text) : isAbsolute (p ++ t) = true := by
  have hstarts : ∀ {q s : Text}, q.startsWith s = true → ∀ r, Text.startsWith (q ++ r) s = true := by
    intro q s hs r
    exact List.isPrefixOf_iff_prefix.mpr ((List.isPrefixOf_iff_prefix.mp hs).trans (List.prefix_append q r))
  have hslashed : slashed (p ++ t) = slashed p ++ slashed t := List.map_append
  rw [isAbsolute, isForeign, Bool.or_eq_true, Bool.or_eq_true] at h ⊢
  rw [hslashed]
  refine h.imp (fun h => hstarts h t) (Or.imp (fun h => ?_) fun h => hstarts h _)
  obtain ⟨c, rest, hp, hc⟩ := exists_of_hasDrive h
  rw [hp]
  exact hc

/-- With or without its own slash at the end, the working directory gives one key. -/
theorem key_join_of_relative (cwd : Text) (hworking : ∃ c ∈ working, ¬ IsSeparator c)
    (hrelative : isAbsolute directory = false) :
    key cwd (join working directory) = key cwd (working ++ '/' :: directory) := by
  have hne : working ≠ [] := by
    rintro rfl
    simp at hworking
  obtain ⟨front, hfront, hjoin⟩ := exists_join_eq hne
  rw [hjoin directory (Bool.or_eq_false_iff.mp hrelative).1]
  rcases hfront with rfl | rfl
  · rfl
  · obtain ⟨c, hc, hletter⟩ := hworking
    have hletters : ∃ x ∈ front, ¬ IsSeparator x := by
      rcases List.mem_append.mp hc with hc | hc
      · exact ⟨c, hc, hletter⟩
      · exact absurd (.inl (List.mem_singleton.mp hc)) hletter
    rw [List.append_assoc, List.singleton_append]
    exact ((Respells.double front directory (.inl rfl) hletters).key_eq cwd).symm

theorem isAbsolute_join (hworking : isAbsolute working = true)
    (hrelative : isAbsolute directory = false) : isAbsolute (join working directory) = true := by
  have hne : working ≠ [] := by
    rintro rfl
    cases hworking
  obtain ⟨front, hfront, hjoin⟩ := exists_join_eq hne
  rw [hjoin directory (Bool.or_eq_false_iff.mp hrelative).1]
  rcases hfront with rfl | rfl
  · exact isAbsolute_append hworking _
  · rw [List.append_cons]
    exact isAbsolute_append hworking _

/-- The path of a directory without backslashes is faithful, in a rooted working directory without
them. -/
theorem faithful_join_of_rooted (hrooted : working.startsWith ['/'] = true)
    (hback : '\\' ∉ working ++ directory) : Faithful (join working directory) := by
  refine faithful_of_rooted (startsWith_join hrooted directory) fun hmem => hback ?_
  rw [join] at hmem
  split at hmem
  · exact List.mem_append_right working hmem
  · split at hmem
    · exact hmem
    · simpa using hmem

/-- In a working directory that begins with a piece that has a backslash, a path is faithful if no piece
with one is taken back. -/
theorem faithful_join_of_piece (hlong : 3 ≤ working.length) (hslash : '/' ∉ working.take 3)
    (hmem : '\\' ∈ working.take 3) (hrelative : isAbsolute directory = false)
    (hback : ∀ v ∈ takenBack (!(root (join working directory)).isEmpty) []
      (Text.pieces '/' (join working directory)), '\\' ∉ v) : Faithful (join working directory) := by
  rcases working with _ | ⟨a, _ | ⟨b, _ | ⟨c, t⟩⟩⟩
  · simp at hlong
  · simp at hlong
  · simp at hlong
  obtain ⟨s, hjoin⟩ : ∃ s, join (a :: b :: c :: t) directory = a :: b :: c :: s := by
    rw [isAbsolute, Bool.or_eq_false_iff] at hrelative
    rw [join, hrelative.1, if_neg (by decide)]
    split
    · exact ⟨t ++ directory, rfl⟩
    · exact ⟨t ++ '/' :: directory, rfl⟩
  rw [hjoin] at hback ⊢
  exact faithful_of_piece hslash hmem hback

end Path

namespace Command

variable {cwd working d : Text} {seen ds : List Text}

/-! ### Directories that are kept -/

theorem distinctBy_sublist (cwd : Text) (seen ds : List Text) : (distinctBy cwd seen ds).Sublist ds := by
  induction ds generalizing seen with
  | nil => exact List.nil_sublist _
  | cons d rest ih =>
    simp only [distinctBy]
    split
    · exact (ih _).cons d
    · exact (ih _).cons_cons d

/-- A directory that is not kept has the key of one that is. -/
theorem exists_mem_distinctBy (h : d ∈ ds) :
    Path.key cwd d ∈ seen ∨ ∃ e ∈ distinctBy cwd seen ds, Path.key cwd e = Path.key cwd d := by
  induction ds generalizing seen with
  | nil => cases h
  | cons first rest ih =>
    rw [distinctBy]
    split
    · next hfirst =>
      rcases List.mem_cons.mp h with rfl | h
      · exact .inl (List.contains_iff_mem.mp hfirst)
      · exact ih h
    · rcases List.mem_cons.mp h with rfl | h
      · exact .inr ⟨d, List.mem_cons_self, rfl⟩
      · have hrest : Path.key cwd d ∈ Path.key cwd first :: seen ∨
            ∃ e ∈ distinctBy cwd (Path.key cwd first :: seen) rest, Path.key cwd e = Path.key cwd d := ih h
        rcases hrest with hkey | ⟨e, he, hkey⟩
        · rcases List.mem_cons.mp hkey with hkey | hkey
          · exact .inr ⟨first, List.mem_cons_self, hkey.symm⟩
          · exact .inl hkey
        · exact .inr ⟨e, List.mem_cons_of_mem first he, hkey⟩

/-! ### Directories of a command -/

/-- **Search directories lie in the working directory, where their paths are faithful.**

Let the working directory of a command be absolute. Each search directory is that of a directive, and each
directive has its key among the search directories. In a rooted working directory all of them are absolute.

A relative directory whose path behind the working directory is faithful is found under an absolute path (or
a lone backslash), which has the key of this path; a slash that the working directory ends in makes no
difference, unless it is made of separators only. Paths are faithful if there are no backslashes and the
working directory is rooted. If there is one among the first three characters of the working directory, and
no slash, it is enough that no piece with a backslash is taken back. -/
theorem searchDirectories_from_working (cwd working : Text) (arguments : List Text)
    (hworking : Path.isAbsolute working = true) :
    let named := (directives (searchFlags arguments) arguments).filter (· ≠ [])
    let found := searchDirectories cwd arguments working
    (∀ d ∈ found, ∃ directory ∈ named, d = fromWorking working directory) ∧
    (∀ directory ∈ named, ∃ d ∈ found,
      Path.key cwd d = Path.key cwd (fromWorking working directory)) ∧
    (working.startsWith ['/'] = true → ∀ d ∈ found, Path.isAbsolute d = true) ∧
    (∀ directory, Path.isAbsolute directory = true → fromWorking working directory = directory) ∧
    ∀ directory, Path.isAbsolute directory = false →
      (Path.Faithful (Path.join working directory) →
        let d := fromWorking working directory
        (Path.isAbsolute d = true ∨ d = ['\\']) ∧
        Path.key cwd d = Path.key cwd (Path.join working directory) ∧
        ((∃ c ∈ working, ¬ Path.IsSeparator c) →
          Path.key cwd d = Path.key cwd (working ++ '/' :: directory))) ∧
      (working.startsWith ['/'] = true → '\\' ∉ working ++ directory →
        Path.Faithful (Path.join working directory)) ∧
      (3 ≤ working.length → '/' ∉ working.take 3 → '\\' ∈ working.take 3 →
        (∀ v ∈ Path.takenBack (!(Path.root (Path.join working directory)).isEmpty) []
          (Text.pieces '/' (Path.join working directory)), '\\' ∉ v) →
        Path.Faithful (Path.join working directory)) := by
  intro named found
  have hfound : ∀ d ∈ found, ∃ directory ∈ named, d = fromWorking working directory := by
    intro d hd
    obtain ⟨directory, hmem, heq⟩ := List.mem_map.mp ((distinctBy_sublist cwd [] _).subset hd)
    exact ⟨directory, hmem, heq.symm⟩
  refine ⟨hfound, fun directory hmem => ?_, fun hrooted d hd => ?_, fun directory h => if_pos h,
    fun directory hrelative => ⟨fun hfaithful => ?_, Path.faithful_join_of_rooted, fun hlong hslash hmem =>
      Path.faithful_join_of_piece hlong hslash hmem hrelative⟩⟩
  · exact (exists_mem_distinctBy (List.mem_map_of_mem hmem)).resolve_left List.not_mem_nil
  · obtain ⟨directory, -, rfl⟩ := hfound d hd
    rw [fromWorking]
    split
    · next habsolute => exact habsolute
    · exact Path.isAbsolute_of_startsWith
        (Path.startsWith_normal (Path.startsWith_join hrooted directory))
  · have hplace : fromWorking working directory = Path.normal (Path.join working directory) :=
      if_neg (by simp [hrelative])
    intro d
    have hkey : Path.key cwd d = Path.key cwd (Path.join working directory) := by
      rw [show d = _ from hplace, hfaithful.key_normal]
    refine ⟨?_, hkey, fun hletter => hkey.trans (Path.key_join_of_relative cwd hletter hrelative)⟩
    rw [show d = _ from hplace]
    exact hfaithful.isAbsolute_normal (Path.isAbsolute_join hworking hrelative)

/-- A directory above and one below the working directory keep the drive; one that is absolute keeps its
spelling. -/
theorem searchDirectories_from_working_mixed :
    let arguments : List Text := ["cl.exe".toList, "/I..\\inc".toList, "-I".toList, "sub/../gen\\".toList,
      "-isystem/usr/include".toList, "/I".toList, ['.']]
    let found : List Text := ["C:\\build\\x/..\\inc".toList, "C:\\build\\x/gen\\".toList,
      "/usr/include".toList, "C:\\build\\x".toList]
    Path.isAbsolute "C:\\build\\x" = true ∧
      searchDirectories "/w" arguments "C:\\build\\x" = found ∧
      (∀ d ∈ found, ∃ directory ∈ directives (searchFlags arguments) arguments,
        d = fromWorking "C:\\build\\x" directory) ∧
      ∀ directory ∈ ["..\\inc".toList, "sub/../gen\\".toList, ['.']],
        let d := fromWorking "C:\\build\\x" directory
        d ∈ found ∧ Path.isAbsolute d = true ∧
          Path.key "/w" d = Path.key "/w" ("C:\\build\\x".toList ++ '/' :: directory) := by
  intro arguments found
  have hworking : Path.isAbsolute "C:\\build\\x" = true := by decide +kernel
  have hfound : searchDirectories "/w" arguments "C:\\build\\x" = found := by decide +kernel
  obtain ⟨hnamed, -, -, -, hplace⟩ :=
    searchDirectories_from_working "/w" "C:\\build\\x" arguments hworking
  refine ⟨hworking, hfound, fun d hd => ?_, fun directory hdirectory => ?_⟩
  · obtain ⟨directory, hmem, hdirectory⟩ := hnamed d (hfound ▸ hd)
    exact ⟨directory, List.mem_of_mem_filter hmem, hdirectory⟩
  · have hlocal : Path.isAbsolute directory = false ∧
        Path.Faithful (Path.join "C:\\build\\x" directory) ∧
        fromWorking "C:\\build\\x" directory ∈ found ∧
        fromWorking "C:\\build\\x" directory ≠ ['\\'] := by
      revert directory
      decide +kernel
    obtain ⟨hrelative, hfaithful, hmem, hne⟩ := hlocal
    obtain ⟨habsolute, -, hkey⟩ := (hplace directory hrelative).1 hfaithful
    exact ⟨hmem, habsolute.resolve_right hne, hkey ⟨'C', by decide, by decide⟩⟩

/-- **A directory above the working directory is lost**, if the working directory is on a drive and has no
slash: what is found is not absolute, and has another key. In a rooted working directory a name is lost that
has a backslash in it. -/
theorem searchDirectories_leave_drive :
    let drive : Text := "C:\\build\\x"
    (Path.isAbsolute drive = true ∧
      searchDirectories "/work" ["cl.exe".toList, "/I../inc".toList] drive = ["inc".toList] ∧
      Path.isAbsolute "inc" = false ∧
      Path.key "/work" "inc" = "/work/inc".toList ∧
      Path.key "/work" (drive ++ '/' :: "../inc".toList) = "c:/build/inc".toList) ∧
    searchDirectories "/work" ["cl.exe".toList, "/Isub\\x/../y".toList] "/w" = ["/w/y".toList] ∧
      Path.key "/work" "/w/y" = "/w/y".toList ∧
      Path.key "/work" "/w/sub\\x/../y" = "/w/sub/y".toList := by
  decide +kernel

end Command

end IncludeTrace
