import IncludeTrace.Proofs.Path.Faithful
import Mathlib.Data.List.Basic

/-!
# Paths made of names

What is kept of a path is names behind a number of `..`, and nothing but names if the path is rooted
(`Path.stacked_settle`). A root with names behind it is its own normal form (`Path.normal_append_join`),
so a path is settled as soon as it has this form.

Backslashes come into this twice: they are slashes in the key of a path, but not where its normal form is
taken before. A piece that falls into names at its backslashes is called clean (`Path.Clean`). If all the
pieces of a path are clean, and none with a backslash is taken back by `..`, its place in a directory is
the same whether backslashes are turned into slashes before it is looked up or afterwards
(`Path.slashed_absolute_slashed`).
-/

namespace IncludeTrace.Path

variable {rooted : Bool} {kept ws us : List Text} {cwd p r w : Text}

/-! ### What is kept -/

/-- Names are kept in front of what was kept before. -/
theorem foldl_of_isName (h : ∀ w ∈ ws, IsName w) (rooted : Bool) (kept : List Text) :
    ws.foldl (addSegment rooted) kept = ws.reverse ++ kept := by
  induction ws generalizing kept with
  | nil => rfl
  | cons w ws ih =>
    obtain ⟨hw, hws⟩ := List.forall_mem_cons.mp h
    rw [List.foldl_cons, addSegment_of_isName hw, ih hws, List.reverse_cons, List.append_assoc,
      List.singleton_append]

/-- What is kept, innermost first, is **stacked**: names with a number of `..` behind them, and none if
the path is rooted. -/
def Stacked (rooted : Bool) (kept : List Text) : Prop :=
  ∃ names n, kept = names ++ List.replicate n ['.', '.'] ∧ (∀ w ∈ names, IsName w) ∧
    (rooted = true → n = 0)

/-- **Step.** What is stacked stays so when a segment is added. -/
theorem stacked_addSegment (h : Stacked rooted kept) (w : Text) :
    Stacked rooted (addSegment rooted kept w) := by
  obtain ⟨names, n, rfl, hnames, hn⟩ := h
  by_cases hw : IsName w
  · rw [addSegment_of_isName hw]
    exact ⟨w :: names, n, rfl, List.forall_mem_cons.mpr ⟨hw, hnames⟩, hn⟩
  · obtain hw | hw | hw := not_isName_iff.mp hw
    · rw [addSegment_of_here (.inl hw)]
      exact ⟨names, n, rfl, hnames, hn⟩
    · rw [addSegment_of_here (.inr hw)]
      exact ⟨names, n, rfl, hnames, hn⟩
    · subst hw
      rw [addSegment_back]
      cases names with
      | nil =>
        -- there is no name to take back, so `..` stays unless the path is rooted
        cases rooted with
        | true =>
          obtain rfl := hn rfl
          exact ⟨[], 0, rfl, List.forall_mem_nil _, fun _ => rfl⟩
        | false =>
          refine ⟨[], n + 1, ?_, List.forall_mem_nil _, fun e => by cases e⟩
          cases n <;> simp [List.replicate_succ]
      | cons last names =>
        obtain ⟨hlast, hnames⟩ := List.forall_mem_cons.mp hnames
        exact ⟨names, n, if_neg hlast.2.2, hnames, hn⟩

/-- **Run.** What segments settle to is stacked. -/
theorem stacked_settle (rooted : Bool) (ws : List Text) : Stacked rooted (settle rooted ws) := by
  have hrun : ∀ kept, Stacked rooted kept → Stacked rooted (ws.foldl (addSegment rooted) kept) := by
    induction ws with
    | nil => exact fun _ h => h
    | cons w ws ih => exact fun kept h => ih _ (stacked_addSegment h w)
  exact hrun [] ⟨[], 0, rfl, List.forall_mem_nil _, fun _ => rfl⟩

/-- The segments of a rooted path are names. -/
theorem isName_of_mem_segments (hp : root p ≠ []) : ∀ w ∈ segments p, IsName w := by
  intro w hw
  obtain ⟨names, n, hkept, hnames, hn⟩ := stacked_settle (!(root p).isEmpty) (p.pieces '/')
  obtain rfl : n = 0 := hn (by simpa using hp)
  rw [segments_eq, List.mem_reverse, hkept, List.replicate_zero, List.append_nil] at hw
  exact hnames w hw

/-- **A root with names behind it has these as its segments.** -/
theorem segments_append_join (hr : r = ['/'] ∨ r = ['/', '/']) (hnames : ∀ w ∈ ws, IsName w)
    (hslash : ∀ w ∈ ws, '/' ∉ w) : segments (r ++ Text.join ['/'] ws) = ws := by
  obtain ⟨before, hpieces, hblank⟩ := exists_pieces_append_join (.inr hr) hslash
  rw [segments_eq, hpieces, settle, foldl_append_of_here fun w hw => .inl (hblank w hw),
    foldl_of_isName hnames, List.append_nil, List.reverse_reverse]

/-- **A root with names behind it is its own normal form.** -/
theorem normal_append_join (hr : r = ['/'] ∨ r = ['/', '/']) (hnames : ∀ w ∈ ws, IsName w)
    (hslash : ∀ w ∈ ws, '/' ∉ w) :
    normal (r ++ Text.join ['/'] ws) = r ++ Text.join ['/'] ws := by
  have hroot : root (r ++ Text.join ['/'] ws) = r :=
    root_append_join (.inr hr) fun w hw => ⟨(hnames w hw).1, hslash w hw⟩
  have hne : root (r ++ Text.join ['/'] ws) ≠ [] := by
    rw [hroot]
    rcases hr with rfl | rfl <;> exact List.cons_ne_nil _ _
  rw [normal_of_root hne, hroot, segments_append_join hr hnames hslash]

/-! ### Parts of pieces -/

/-- The **parts** of a piece stand between its backslashes. -/
def parts (w : Text) : List Text := (slashed w).pieces '/'

theorem of_mem_parts {v : Text} (h : v ∈ parts w) : '/' ∉ v ∧ '\\' ∉ v := by
  obtain ⟨hslash, hchars⟩ := Text.of_mem_pieces h
  exact ⟨hslash, fun hback => backslash_not_mem_slashed w (hchars _ hback)⟩

theorem slash_not_mem_of_mem_parts {v : Text} (h : v ∈ ws.flatMap parts) : '/' ∉ v := by
  obtain ⟨w, -, hv⟩ := List.mem_flatMap.mp h
  exact (of_mem_parts hv).1

theorem parts_of_not_mem (hslash : '/' ∉ w) (hback : '\\' ∉ w) : parts w = [w] := by
  rw [parts, slashed_of_not_mem hback, Text.pieces_of_not_mem hslash]

theorem parts_of_not_isName (h : ¬ IsName w) : parts w = [w] := by
  obtain rfl | rfl | rfl := not_isName_iff.mp h <;> exact parts_of_not_mem (by decide) (by decide)

theorem pieces_slashed (p : Text) : (slashed p).pieces '/' = (p.pieces '/').flatMap parts :=
  Text.pieces_map _ rfl p

/-- Parts have no parts but themselves. -/
theorem flatMap_parts_parts (ws : List Text) :
    (ws.flatMap parts).flatMap parts = ws.flatMap parts := by
  rw [List.flatMap_assoc]
  refine List.flatMap_congr fun w _ => ?_
  have hself : ∀ v ∈ parts w, parts v = [v] := fun v hv =>
    parts_of_not_mem (of_mem_parts hv).1 (of_mem_parts hv).2
  rw [List.flatMap_congr hself, ← List.map_eq_flatMap, List.map_id']

/-- Backslashes become slashes in segments one by one. -/
theorem slashed_append_join (hr : r = ['/'] ∨ r = ['/', '/']) (hslash : ∀ w ∈ ws, '/' ∉ w) :
    slashed (r ++ Text.join ['/'] ws) = r ++ Text.join ['/'] (ws.flatMap parts) := by
  have hroot : slashed r = r := by rcases hr with rfl | rfl <;> rfl
  have hjoin : slashed (Text.join ['/'] ws) = Text.join ['/'] (ws.flatMap parts) := by
    by_cases hne : ws = []
    · subst hne
      rfl
    · rw [← Text.join_pieces '/' (slashed (Text.join ['/'] ws)), pieces_slashed,
        Text.pieces_join hne hslash]
  rw [slashed, List.map_append, ← slashed, ← slashed, hroot, hjoin]

/-- A piece is **clean** if it has no backslash, or has names between its backslashes. -/
def Clean (w : Text) : Prop := '\\' ∈ w → ∀ v ∈ parts w, IsName v

instance : DecidablePred Clean :=
  fun w => inferInstanceAs (Decidable ('\\' ∈ w → ∀ v ∈ parts w, IsName v))

/-- A clean piece does not begin with a backslash. -/
theorem Clean.head?_ne (h : Clean w) : w.head? ≠ some '\\' := by
  intro hw
  obtain ⟨t, rfl⟩ := List.head?_eq_some_iff.mp hw
  have hempty : [] ∈ parts ('\\' :: t) := by
    have hparts : parts ('\\' :: t) = [] :: parts t := Text.pieces_cons_self '/' (slashed t)
    exact hparts ▸ List.mem_cons_self
  exact (h List.mem_cons_self [] hempty).1 rfl

theorem clean_of_not_mem (h : '\\' ∉ w) : Clean w := fun hmem => absurd hmem h

/-- Clean names fall into names. -/
theorem isName_of_mem_flatMap_parts (h : ∀ w ∈ ws, IsName w ∧ '/' ∉ w ∧ Clean w) :
    ∀ v ∈ ws.flatMap parts, IsName v := by
  intro v hv
  obtain ⟨w, hw, hv⟩ := List.mem_flatMap.mp hv
  obtain ⟨hname, hslash, hclean⟩ := h w hw
  by_cases hback : '\\' ∈ w
  · exact hclean hback v hv
  · rw [parts_of_not_mem hslash hback, List.mem_singleton] at hv
    exact hv ▸ hname

/-- **Pieces may be taken apart before they are added to others or afterwards**, if they are clean and
none with a backslash is taken back. What they are added to may have backslashes of its own. -/
theorem flatMap_parts_foldl (hclean : ∀ w ∈ ws, '/' ∉ w ∧ Clean w)
    (hback : ws.Pairwise fun v w => w = ['.', '.'] → '\\' ∉ v) (rooted : Bool) (kept : List Text) :
    ((ws.flatMap parts).foldl (addSegment rooted) kept).reverse.flatMap parts =
      (ws.foldl (addSegment rooted) kept).reverse.flatMap parts := by
  have htaken : ∀ v ∈ takenBack false [] ws, '\\' ∉ v := of_mem_takenBack hback
  have hfixed : ∀ v ∈ takenBack false [] ws, parts v = [v] := fun v hv =>
    parts_of_not_mem (hclean v (takenBack_subset hv)).1 (htaken v hv)
  obtain ⟨names, n, hkept, hnames, -⟩ := stacked_settle false ws
  have hsettled : (settle false ws).reverse = List.replicate n ['.', '.'] ++ names.reverse := by
    rw [hkept, List.reverse_append, List.reverse_replicate]
  have hparts : ∀ v ∈ names.reverse.flatMap parts, IsName v := by
    refine isName_of_mem_flatMap_parts fun w hw => ?_
    rw [List.mem_reverse] at hw
    have hmem : w ∈ settle false ws := hkept ▸ List.mem_append_left _ hw
    exact ⟨hnames w hw, hclean w ((of_mem_settle false ws).2 hmem)⟩
  have hdots : (List.replicate n ['.', '.']).flatMap parts = List.replicate n ['.', '.'] := by
    have hself : ∀ v ∈ List.replicate n ['.', '.'], parts v = [v] := fun v hv =>
      List.eq_of_mem_replicate hv ▸ parts_of_not_isName (by decide)
    rw [List.flatMap_congr hself, ← List.map_eq_flatMap, List.map_id']
  -- what the pieces take back of the others, they take back before their names are added
  have hwhole : ws.foldl (addSegment rooted) kept =
      names ++ (List.replicate n ['.', '.']).foldl (addSegment rooted) kept := by
    rw [foldl_settle, hsettled, List.foldl_append,
      foldl_of_isName fun w hw => hnames w (List.mem_reverse.mp hw), List.reverse_reverse]
  have happart : (ws.flatMap parts).foldl (addSegment rooted) kept =
      (names.reverse.flatMap parts).reverse ++
        (List.replicate n ['.', '.']).foldl (addSegment rooted) kept := by
    rw [foldl_settle, settle_flatMap (fun _ => parts_of_not_isName) hfixed, ← foldl_settle, hsettled,
      List.flatMap_append, hdots, List.foldl_append, foldl_of_isName hparts]
  rw [hwhole, happart, List.reverse_append, List.reverse_append, List.reverse_reverse,
    List.flatMap_append, List.flatMap_append, flatMap_parts_parts]

/-! ### Places in a directory -/

/-- A current directory is **plain** if it is rooted and its pieces are clean. -/
def Plain (cwd : Text) : Prop := cwd.startsWith ['/'] = true ∧ ∀ w ∈ cwd.pieces '/', Clean w

instance : DecidablePred Plain :=
  fun cwd => inferInstanceAs (Decidable (cwd.startsWith ['/'] = true ∧ ∀ w ∈ cwd.pieces '/', Clean w))

/-- A path is **tidy** if its pieces are clean and none with a backslash comes before a `..`. -/
def Tidy (p : Text) : Prop :=
  (∀ w ∈ p.pieces '/', Clean w) ∧ (p.pieces '/').Pairwise fun v w => w = ['.', '.'] → '\\' ∉ v

instance : DecidablePred Tidy := fun p => inferInstanceAs (Decidable ((∀ w ∈ p.pieces '/', Clean w) ∧
  (p.pieces '/').Pairwise fun v w => w = ['.', '.'] → '\\' ∉ v))

theorem startsWith_join (hcwd : cwd.startsWith ['/'] = true) (p : Text) :
    (join cwd p).startsWith ['/'] = true := by
  cases hp : p.startsWith ['/'] with
  | true => rwa [join_of_startsWith hp]
  | false =>
    obtain ⟨_, -, hjoin⟩ := exists_join hcwd
    exact (hjoin p hp).2

theorem root_join_ne_nil (hcwd : cwd.startsWith ['/'] = true) (p : Text) : root (join cwd p) ≠ [] := by
  rw [ne_eq, root_eq_nil_iff, startsWith_join hcwd]
  decide

/-- The segments of a place in a rooted directory are names. -/
theorem isName_of_mem_segments_join (hcwd : cwd.startsWith ['/'] = true) (p : Text) :
    ∀ w ∈ segments (join cwd p), IsName w ∧ '/' ∉ w := fun w hw =>
  ⟨isName_of_mem_segments (root_join_ne_nil hcwd p) w hw, (Text.of_mem_pieces (of_mem_segments hw).1).1⟩

/-- The segments of a place are clean names if those of the directory and of the path are. -/
theorem of_mem_segments_join (hcwd : Plain cwd) (hp : ∀ w ∈ p.pieces '/', Clean w) :
    ∀ w ∈ segments (join cwd p), IsName w ∧ '/' ∉ w ∧ Clean w := by
  intro w hw
  obtain ⟨hname, hslash⟩ := isName_of_mem_segments_join hcwd.1 p w hw
  refine ⟨hname, hslash, ?_⟩
  have hpiece := (of_mem_segments hw).1
  cases hrooted : p.startsWith ['/'] with
  | true =>
    rw [join_of_startsWith hrooted] at hpiece
    exact hp w hpiece
  | false =>
    obtain ⟨front, hfront, hjoin⟩ := exists_join hcwd.1
    rw [(hjoin p hrooted).1, Text.pieces_append_cons, List.mem_append] at hpiece
    exact hpiece.elim (fun hmem => hcwd.2 w (hfront hmem)) (hp w)

theorem slashed_normal (hp : root p ≠ []) :
    slashed (normal p) = root p ++ Text.join ['/'] ((segments p).flatMap parts) := by
  have hslash : ∀ w ∈ segments p, '/' ∉ w := fun w hw =>
    (Text.of_mem_pieces (of_mem_segments hw).1).1
  rw [normal_of_root hp, slashed_append_join ((root_cases p).resolve_left hp) hslash]

/-- A path that is rooted but not foreign begins with a single slash, and so it does in slashes. -/
theorem root_of_not_isForeign (hp : p.startsWith ['/'] = true) (hforeign : isForeign p = false) :
    root p = ['/'] ∧ root (slashed p) = ['/'] := by
  obtain ⟨t, rfl⟩ := List.isPrefixOf_iff_prefix.mp hp
  have hslashed : slashed (['/'] ++ t) = ['/'] ++ slashed t := rfl
  have ht : (slashed t).head? ≠ some '/' := by
    intro e
    obtain ⟨s, hs⟩ := List.head?_eq_some_iff.mp e
    rw [isForeign, hslashed, hs, Bool.or_eq_false_iff] at hforeign
    exact absurd hforeign.2 (by simp [Text.startsWith])
  have ht' : t.head? ≠ some '/' := by
    intro e
    obtain ⟨s, rfl⟩ := List.head?_eq_some_iff.mp e
    exact ht rfl
  exact ⟨root_append (.inr (.inl rfl)) ht', hslashed ▸ root_append (.inr (.inl rfl)) ht⟩

/-- **The place of a tidy path in a directory is the same in slashes**, whether its backslashes are turned
into slashes before it is looked up there or afterwards. -/
theorem slashed_absolute_slashed (hcwd : cwd.startsWith ['/'] = true) (hp : Tidy p)
    (hforeign : isForeign p = false) :
    slashed (absolute cwd (slashed p)) = slashed (absolute cwd p) := by
  have hroot := root_join_ne_nil hcwd p
  obtain ⟨hsame, before, hpieces, hparts⟩ : root (join cwd (slashed p)) = root (join cwd p) ∧
      ∃ before, (join cwd p).pieces '/' = before ++ p.pieces '/' ∧
        (join cwd (slashed p)).pieces '/' = before ++ (p.pieces '/').flatMap parts := by
    cases hrooted : p.startsWith ['/'] with
    | true =>
      obtain ⟨hr, hr'⟩ := root_of_not_isForeign hrooted hforeign
      have hrooted' : (slashed p).startsWith ['/'] = true := by
        rw [← Bool.not_eq_false, ← root_eq_nil_iff, hr']
        decide
      rw [join_of_startsWith hrooted, join_of_startsWith hrooted']
      exact ⟨hr'.trans hr.symm, [], rfl, pieces_slashed p⟩
    | false =>
      have hrooted' := startsWith_slashed hrooted fun w hw => (hp.1 w hw).head?_ne
      obtain ⟨front, -, hjoin⟩ := exists_join hcwd
      rw [(hjoin p hrooted).1, (hjoin _ hrooted').1, Text.pieces_append_cons,
        Text.pieces_append_cons, pieces_slashed p]
      exact ⟨root_append_cons (root_eq_nil_iff.mpr hrooted') (root_eq_nil_iff.mpr hrooted) front,
        _, rfl, rfl⟩
  have hslash : ∀ w ∈ p.pieces '/', '/' ∉ w ∧ Clean w := fun w hw =>
    ⟨(Text.of_mem_pieces hw).1, hp.1 w hw⟩
  rw [absolute, absolute, slashed_normal hroot, slashed_normal (hsame ▸ hroot), segments_eq,
    segments_eq, hsame, hpieces, hparts, settle, settle, List.foldl_append, List.foldl_append,
    flatMap_parts_foldl hslash hp.2]

end IncludeTrace.Path
